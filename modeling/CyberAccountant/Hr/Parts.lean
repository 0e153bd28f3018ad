import CyberAccountant.Hr.Commands

/-! The part of the personnel tables that is one organisation's.  A statement about an organisation does the
same with that part alone, and one about another leaves it. -/

namespace CyberAccountant.Hr

open CyberAccountant.Library CyberAccountant.Ledger CyberAccountant.Tenancy

/-! ### Memberships -/

section

variable {t t' : OrgMembers Uuid Uuid} {org user : Uuid} {role : OrgRole} {o : Option Uuid}

def memberTenant (m : OrgMember Uuid Uuid) : Option Uuid := some m.org

/-- The memberships of a tenant. -/
def memberPart (o : Option Uuid) (t : OrgMembers Uuid Uuid) : OrgMembers Uuid Uuid where
  rows := rowsOf memberTenant t.rows o
  unique := t.unique.sublist (List.filter_sublist.map _)

theorem members_eq (h : t.rows = t'.rows) : t = t' := by
  cases t
  cases t'
  cases h
  rfl

theorem memberKey_tenant {m : OrgMember Uuid Uuid} (h : m.key = (org, user)) : memberTenant m = some org :=
  congrArg some (congrArg Prod.fst h)

theorem findMembership_part : (memberPart (some org) t).findMembership org user = t.findMembership org user :=
  rowOf_rowsOf fun _ => memberKey_tenant

theorem rows_add :
    (t.add org user role).rows =
      if t.findMembership org user = none then t.rows ++ [⟨org, user, role⟩] else t.rows := by
  unfold OrgMembers.add
  split <;> rfl

theorem add_part : (memberPart (some org) t).add org user role = memberPart (some org) (t.add org user role) := by
  apply members_eq
  show _ = rowsOf memberTenant (t.add org user role).rows (some org)
  rw [rows_add, rows_add, findMembership_part]
  split
  · have hOwner : memberTenant ⟨org, user, role⟩ = some org := rfl
    exact (rowsOf_append_own hOwner).symm
  · rfl

theorem add_frame (hOther : some org ≠ o) : memberPart o (t.add org user role) = memberPart o t := by
  apply members_eq
  show rowsOf memberTenant (t.add org user role).rows o = _
  rw [rows_add]
  split
  · have hOwner : memberTenant ⟨org, user, role⟩ ≠ o := hOther
    exact rowsOf_append_other hOwner
  · rfl

theorem setRole_tenant (m : OrgMember Uuid Uuid) : memberTenant { m with role := role } = memberTenant m := rfl

theorem setRole_part :
    (memberPart (some org) t).setRole org user role = memberPart (some org) (t.setRole org user role) :=
  members_eq (rowsOf_changeRow setRole_tenant).symm

theorem setRole_frame (hOther : some org ≠ o) : memberPart o (t.setRole org user role) = memberPart o t := by
  apply members_eq
  show rowsOf memberTenant (changeRow _ _ _ _) o = rowsOf memberTenant t.rows o
  rw [rowsOf_changeRow setRole_tenant, changeRow_rowsOf_other]
  exact fun m hHere hSame => hOther ((memberKey_tenant hHere).symm.trans hSame)

/-- Rows that are taken out for another reason leave the part without them. -/
theorem without_part (drop : OrgMember Uuid Uuid → Bool) :
    (memberPart o t).without drop = memberPart o (t.without drop) := by
  apply members_eq
  show List.filter _ (List.filter _ _) = List.filter _ (List.filter _ _)
  rw [List.filter_filter, List.filter_filter]
  simp only [Bool.and_comm]

theorem remove_frame (hOther : some org ≠ o) : memberPart o (t.remove org user) = memberPart o t := by
  apply members_eq
  show List.filter _ (List.filter _ _) = List.filter _ _
  rw [List.filter_filter]
  apply List.filter_congr
  intro m _
  by_cases hMine : memberTenant m = o
  · have hNot : m.key ≠ (org, user) := fun hKey => hOther ((memberKey_tenant hKey).symm.trans hMine)
    simp [hMine, hNot]
  · simp [hMine]

end

/-! ### Ids -/

/-- The id is one of those that were drawn for the organisation. -/
def IsDrawn (newId : Uuid → Nat → Uuid) (s : HrTables) (org id : Uuid) : Prop := ∃ k < s.drawn org, id = newId org k

/-- No id is drawn twice. -/
def DrawsApart (newId : Uuid → Nat → Uuid) : Prop := ∀ org k org' k', newId org k = newId org' k' → org = org' ∧ k = k'

/-- All ids of the tables were drawn. -/
structure IdsDrawn (newId : Uuid → Nat → Uuid) (s : HrTables) : Prop where
  employees : ∀ e ∈ s.employees.rows, IsDrawn newId s e.orgId e.id
  orders : ∀ r ∈ s.orders.rows, IsDrawn newId s r.orgId r.id
  contracts : ∀ r ∈ s.contracts.rows, IsDrawn newId s r.orgId r.id
  vacations : ∀ r ∈ s.vacations.rows, IsDrawn newId s r.orgId r.id

section

variable {newId : Uuid → Nat → Uuid} {s s' : HrTables} {org org' id : Uuid} {o : Option Uuid}

/-- The next id is none of the drawn ones. -/
theorem IsDrawn.ne_next (hApart : DrawsApart newId) (h : IsDrawn newId s org' id) :
    id ≠ newId org (s.drawn org) := by
  obtain ⟨k, hk, rfl⟩ := h
  intro hEq
  obtain ⟨rfl, rfl⟩ := hApart _ _ _ _ hEq
  exact Nat.lt_irrefl _ hk

theorem IsDrawn.draw (h : IsDrawn newId s org' id) : IsDrawn newId (s.draw org) org' id := by
  obtain ⟨k, hk, rfl⟩ := h
  refine ⟨k, ?_, rfl⟩
  show k < if org' = org then s.drawn org' + 1 else s.drawn org'
  split <;> omega

theorem IsDrawn.drawn : IsDrawn newId (s.draw org) org (newId org (s.drawn org)) := by
  refine ⟨s.drawn org, ?_, rfl⟩
  show s.drawn org < if org = org then s.drawn org + 1 else s.drawn org
  rw [if_pos rfl]
  omega

end

/-! ### The tables -/

namespace HrTables

/-- The part of a tenant.  Users are everybody's. -/
def part (o : Option Uuid) (s : HrTables) : HrTables where
  users := s.users
  members := memberPart o s.members
  employees := s.employees.part o
  orders := hrPart o s.orders
  contracts := hrPart o s.contracts
  vacations := hrPart o s.vacations
  drawn org := if some org = o then s.drawn org else 0

variable {newId : Uuid → Nat → Uuid} {s : HrTables} {org : Uuid} {o : Option Uuid} {now : Timestamp} {c : HrCommand}

theorem part_employees : (s.part o).employees = s.employees.part o := rfl

theorem part_orders : (s.part o).orders = hrPart o s.orders := rfl

theorem part_contracts : (s.part o).contracts = hrPart o s.contracts := rfl

theorem part_vacations : (s.part o).vacations = hrPart o s.vacations := rfl

theorem drawn_part : (s.part (some org)).drawn org = s.drawn org := if_pos rfl

theorem draw_part : (s.part (some org)).draw org = (s.draw org).part (some org) := by
  have hDrawn : ((s.part (some org)).draw org).drawn = ((s.draw org).part (some org)).drawn := by
    funext org'
    show (if org' = org then _ else _) = if some org' = some org then _ else _
    by_cases hSame : org' = org
    · simp [hSame, part, draw]
    · simp [hSame, part]
  show HrTables.mk _ _ _ _ _ _ ((s.part (some org)).draw org).drawn = _
  rw [hDrawn]
  rfl

theorem draw_frame (hOther : some org ≠ o) : (s.draw org).part o = s.part o := by
  have hDrawn : ((s.draw org).part o).drawn = (s.part o).drawn := by
    funext org'
    by_cases hMine : some org' = o
    · have hNe : org' ≠ org := fun hEq => hOther (hEq ▸ hMine)
      simp [part, draw, hMine, hNe]
    · simp [part, hMine]
  show HrTables.mk _ _ _ _ _ _ ((s.draw org).part o).drawn = _
  rw [hDrawn]
  rfl

theorem commit_part {τ ρ : Type} {f : τ → τ} {store store' : τ → HrTables} {x : Except StatementFault (τ × ρ)}
    (hStore : ∀ t, store' (f t) = (store t).part o) :
    commit (s.part o) store' ((fun p => (f p.1, p.2)) <$> x) =
      ((commit s store x).1, (commit s store x).2.part o) := by
  cases x with
  | error e => rfl
  | ok p => exact congrArg (Prod.mk _) (hStore p.1)

theorem commit_frame {τ ρ : Type} {store : τ → HrTables} {x : Except StatementFault (τ × ρ)}
    (hStore : ∀ t r, x = .ok (t, r) → (store t).part o = s.part o) : (commit s store x).2.part o = s.part o := by
  cases x with
  | error e => rfl
  | ok p => exact hStore p.1 p.2 rfl

theorem writeMember_part {w : MemberWrite Uuid Uuid} (h : ∀ org, (HrCommand.writeMember w).org = some org → o = some org) :
    (s.part o).writeMember w = (s.writeMember w).part o := by
  cases w with
  | add org user role =>
    obtain rfl := h org rfl
    show (if user ∈ s.users then _ else _) = part _ (if user ∈ s.users then _ else _)
    by_cases hUser : user ∈ s.users
    · rw [if_pos hUser, if_pos hUser]
      exact congrArg (fun m => { s.part (some org) with members := m }) add_part
    · rw [if_neg hUser, if_neg hUser]
  | setRole org user role =>
    obtain rfl := h org rfl
    exact congrArg (fun m => { s.part (some org) with members := m }) setRole_part
  | remove org user => exact congrArg (fun m => { s.part o with members := m }) (without_part _)
  | deleteUser user =>
    exact congrArg (fun m => { s.part o with users := s.users.filter (· ≠ user), members := m }) (without_part _)

theorem writeMember_frame {w : MemberWrite Uuid Uuid} (hOrg : (HrCommand.writeMember w).org = some org)
    (hOther : some org ≠ o) : (s.writeMember w).part o = s.part o := by
  cases w with
  | add org' user role =>
    obtain rfl := Option.some.inj hOrg
    show part o (if user ∈ s.users then _ else _) = _
    split
    · exact congrArg (fun m => { s.part o with members := m }) (add_frame hOther)
    · rfl
  | setRole org' user role =>
    obtain rfl := Option.some.inj hOrg
    exact congrArg (fun m => { s.part o with members := m }) (setRole_frame hOther)
  | remove org' user =>
    obtain rfl := Option.some.inj hOrg
    exact congrArg (fun m => { s.part o with members := m }) (remove_frame hOther)
  | deleteUser user => cases hOrg

/-- A statement about an organisation does the same with its part alone. -/
theorem exec_part (hApart : DrawsApart newId) (hIds : IdsDrawn newId s) (hOrg : c.org = some org) :
    exec newId now c (s.part (some org)) =
      ((exec newId now c s).1, (exec newId now c s).2.part (some org)) := by
  cases c with
  | findMembership org' user =>
    obtain rfl := Option.some.inj hOrg
    exact congrArg (·, s.part (some org')) findMembership_part
  | createEmployee org' fields hiredOn =>
    obtain rfl := Option.some.inj hOrg
    have hFresh : ∀ e ∈ s.employees.rows, e.id ≠ newId org' (s.drawn org') := fun e he =>
      (hIds.employees e he).ne_next hApart
    simp only [exec, drawn_part, part_employees]
    rw [Employees.create_part hFresh]
    exact commit_part fun t => by rw [draw_part]; rfl
  | findEmployee id org' =>
    obtain rfl := Option.some.inj hOrg
    exact congrArg (·, s.part (some org')) Employees.row_part
  | listEmployees org' page =>
    obtain rfl := Option.some.inj hOrg
    simp only [exec, Employees.listInOrg, part_employees]
    rw [Employees.rows_part]
  | countEmployees org' =>
    obtain rfl := Option.some.inj hOrg
    simp only [exec, Employees.countInOrg, part_employees]
    rw [Employees.rows_part]
  | updateEmployee org' id patch =>
    obtain rfl := Option.some.inj hOrg
    simp only [exec, part_employees]
    rw [Employees.update_part]
    exact commit_part fun _ => rfl
  | dismissEmployee org' id date =>
    obtain rfl := Option.some.inj hOrg
    simp only [exec, part_employees]
    rw [Employees.dismiss_part]
    exact commit_part fun _ => rfl
  | listEmployedDuring org' periodStart periodEnd =>
    obtain rfl := Option.some.inj hOrg
    simp only [exec, Employees.listEmployedDuring, part_employees]
    rw [Employees.rows_part]
  | createOrder org' draft =>
    obtain rfl := Option.some.inj hOrg
    simp only [exec, createOrder, drawn_part, part_employees, part_orders]
    rw [insertRow_part (fun r hr => by rw [orderRow_keys hr]) fun r hr r' hr' => by
      rw [orderRow_keys hr]
      exact (hIds.orders r' hr').ne_next hApart]
    exact commit_part fun t => by rw [draw_part]; rfl
  | listOrders org' employee page =>
    obtain rfl := Option.some.inj hOrg
    simp only [exec, listOrders, part_orders]
    rw [ofEmployee_part]
  | countOrders org' employee =>
    obtain rfl := Option.some.inj hOrg
    simp only [exec, countOrders, part_orders]
    rw [ofEmployee_part]
  | createContract org' draft =>
    obtain rfl := Option.some.inj hOrg
    simp only [exec, createContract, drawn_part, part_employees, part_contracts]
    rw [insertRow_part (fun r hr => by rw [contractRow_keys hr]) fun r hr r' hr' => by
      rw [contractRow_keys hr]
      exact (hIds.contracts r' hr').ne_next hApart]
    exact commit_part fun t => by rw [draw_part]; rfl
  | listContracts org' employee =>
    obtain rfl := Option.some.inj hOrg
    simp only [exec, listContracts, part_contracts]
    rw [ofEmployee_part]
  | createVacation org' draft =>
    obtain rfl := Option.some.inj hOrg
    simp only [exec, createVacation, drawn_part, part_employees, part_vacations]
    rw [insertRow_part (fun r hr => by rw [vacationRow_keys hr]) fun r hr r' hr' => by
      rw [vacationRow_keys hr]
      exact (hIds.vacations r' hr').ne_next hApart]
    exact commit_part fun t => by rw [draw_part]; rfl
  | listVacations org' employee page =>
    obtain rfl := Option.some.inj hOrg
    simp only [exec, listVacations, part_vacations]
    rw [ofEmployee_part]
  | countVacations org' employee =>
    obtain rfl := Option.some.inj hOrg
    simp only [exec, countVacations, part_vacations]
    rw [ofEmployee_part]
  | writeMember w =>
    refine congrArg (Prod.mk ()) (writeMember_part fun org' hOrg' => ?_)
    exact hOrg.symm.trans hOrg'
  | createUser user => cases hOrg

/-- It leaves the part of any other. -/
theorem exec_frame (hOrg : c.org = some org) (hOther : some org ≠ o) : (exec newId now c s).2.part o = s.part o := by
  cases c with
  | findMembership | findEmployee | listEmployees | countEmployees | listEmployedDuring | listOrders | countOrders
  | listContracts | listVacations | countVacations => rfl
  | createEmployee org' fields hiredOn =>
    obtain rfl := Option.some.inj hOrg
    refine commit_frame fun t e h => ?_
    rw [show part o { s.draw org' with employees := t } = { (s.draw org').part o with employees := t.part o } from rfl,
      draw_frame hOther, Employees.create_frame h hOther]
    rfl
  | updateEmployee org' id patch =>
    obtain rfl := Option.some.inj hOrg
    refine commit_frame fun t e h => ?_
    exact congrArg (fun t => { s.part o with employees := t }) (Employees.update_frame h hOther)
  | dismissEmployee org' id date =>
    obtain rfl := Option.some.inj hOrg
    refine commit_frame fun t e h => ?_
    exact congrArg (fun t => { s.part o with employees := t }) (Employees.dismiss_frame h hOther)
  | createOrder org' draft =>
    obtain rfl := Option.some.inj hOrg
    refine commit_frame fun t r h => ?_
    rw [show part o { s.draw org' with orders := t } = { (s.draw org').part o with orders := hrPart o t } from rfl,
      draw_frame hOther, insertRow_frame (fun r hr => by rw [orderRow_keys hr]) h hOther]
    rfl
  | createContract org' draft =>
    obtain rfl := Option.some.inj hOrg
    refine commit_frame fun t r h => ?_
    rw [show part o { s.draw org' with contracts := t } = { (s.draw org').part o with contracts := hrPart o t } from rfl,
      draw_frame hOther, insertRow_frame (fun r hr => by rw [contractRow_keys hr]) h hOther]
    rfl
  | createVacation org' draft =>
    obtain rfl := Option.some.inj hOrg
    refine commit_frame fun t r h => ?_
    rw [show part o { s.draw org' with vacations := t } = { (s.draw org').part o with vacations := hrPart o t } from rfl,
      draw_frame hOther, insertRow_frame (fun r hr => by rw [vacationRow_keys hr]) h hOther]
    rfl
  | writeMember w => exact writeMember_frame hOrg hOther
  | createUser user => cases hOrg

/-- A statement about nobody in particular does the same with each part. -/
theorem exec_part_none (hOrg : c.org = none) : (exec newId now c (s.part o)).2 = (exec newId now c s).2.part o := by
  cases c with
  | writeMember w => exact writeMember_part fun org' hOrg' => (by cases hOrg.symm.trans hOrg')
  | createUser user => rfl
  | _ => cases hOrg

theorem commit_keeps {τ ρ : Type} {P : HrTables → Prop} {store : τ → HrTables} {x : Except StatementFault (τ × ρ)}
    (hs : P s) (h : ∀ t r, x = .ok (t, r) → P (store t)) : P (commit s store x).2 := by
  cases x with
  | error e => exact hs
  | ok p => exact h p.1 p.2 rfl

/-- The write of a membership touches no other tables. -/
theorem writeMember_eq (s : HrTables) (w : MemberWrite Uuid Uuid) :
    ∃ users members, s.writeMember w = { s with users := users, members := members } := by
  cases w with
  | add org user role =>
    show ∃ users members, (if user ∈ s.users then _ else _) = _
    split
    · exact ⟨_, _, rfl⟩
    · exact ⟨_, _, rfl⟩
  | setRole | remove | deleteUser => exact ⟨_, _, rfl⟩

/-- A row that is inserted takes the next id. -/
theorem idsDrawn_insert {ρ : Type} {row : ρ → HrRow} {t t' : HrTable row} {employees : Employees} {r : ρ}
    {made : Except StatementFault ρ} {employee : Uuid}
    (hMade : ∀ r, made = .ok r → row r = ⟨newId org (s.drawn org), org, employee, now, now⟩)
    (h : insertRow row employees t made = .ok (t', r)) (hIds : ∀ r ∈ t.rows, IsDrawn newId s (row r).orgId (row r).id) :
    ∀ r ∈ t'.rows, IsDrawn newId (s.draw org) (row r).orgId (row r).id := by
  obtain ⟨hRow, -, hInsert⟩ := insertRow_ok h
  intro r' hr'
  rw [(UniqueTable.insert?_eq_some hInsert).2, List.mem_append, List.mem_singleton] at hr'
  rcases hr' with hOld | rfl
  · exact (hIds r' hOld).draw
  · rw [hMade r' hRow]
    exact IsDrawn.drawn

theorem idsDrawn_exec (h : IdsDrawn newId s) : IdsDrawn newId (exec newId now c s).2 := by
  cases c with
  | findMembership | findEmployee | listEmployees | countEmployees | listEmployedDuring | listOrders | countOrders
  | listContracts | listVacations | countVacations => exact h
  | createEmployee org fields hiredOn =>
    refine commit_keeps h fun t e hCreate => ?_
    obtain ⟨hInsert, -, day, -, rfl⟩ := Employees.create_ok hCreate
    refine ⟨fun e' he' => ?_, fun r hr => (h.orders r hr).draw, fun r hr => (h.contracts r hr).draw,
      fun r hr => (h.vacations r hr).draw⟩
    rw [(UniqueTable.insert?_eq_some hInsert).2, List.mem_append, List.mem_singleton] at he'
    rcases he' with hOld | rfl
    · exact (h.employees e' hOld).draw
    · exact IsDrawn.drawn
  | updateEmployee org id patch =>
    refine commit_keeps h fun t result hUpdate => ⟨fun e he => ?_, h.orders, h.contracts, h.vacations⟩
    obtain ⟨e', he', hId, hOrg⟩ := Employees.update_ids hUpdate he
    rw [hId, hOrg]
    exact h.employees e' he'
  | dismissEmployee org id date =>
    refine commit_keeps h fun t result hDismiss => ⟨fun e he => ?_, h.orders, h.contracts, h.vacations⟩
    obtain ⟨e', he', hId, hOrg⟩ := Employees.dismiss_ids hDismiss he
    rw [hId, hOrg]
    exact h.employees e' he'
  | createOrder org draft =>
    refine commit_keeps h fun t r hCreate => ⟨fun e he => (h.employees e he).draw, ?_,
      fun r hr => (h.contracts r hr).draw, fun r hr => (h.vacations r hr).draw⟩
    exact idsDrawn_insert (fun _ hr => orderRow_keys hr) hCreate h.orders
  | createContract org draft =>
    refine commit_keeps h fun t r hCreate => ⟨fun e he => (h.employees e he).draw, fun r hr => (h.orders r hr).draw, ?_,
      fun r hr => (h.vacations r hr).draw⟩
    exact idsDrawn_insert (fun _ hr => contractRow_keys hr) hCreate h.contracts
  | createVacation org draft =>
    refine commit_keeps h fun t r hCreate => ⟨fun e he => (h.employees e he).draw, fun r hr => (h.orders r hr).draw,
      fun r hr => (h.contracts r hr).draw, ?_⟩
    exact idsDrawn_insert (fun _ hr => vacationRow_keys hr) hCreate h.vacations
  | writeMember w =>
    obtain ⟨users, members, hSame⟩ := writeMember_eq s w
    show IdsDrawn newId (s.writeMember w)
    rw [hSame]
    exact ⟨h.employees, h.orders, h.contracts, h.vacations⟩
  | createUser user => exact ⟨h.employees, h.orders, h.contracts, h.vacations⟩

/-- The tenants of a service on these tables are their organisations. -/
def scope (c : HrCommand) : Option (Option Uuid) := c.org.map some

theorem isolated (hApart : DrawsApart newId) : Isolated (exec newId) scope part (IdsDrawn newId) where
  keeps now c s h := idsDrawn_exec h
  reply now c s t h hScope := by
    obtain ⟨org, hOrg, rfl⟩ := Option.map_eq_some_iff.mp hScope
    rw [exec_part hApart h hOrg]
  effect now c s t h hScope := by
    cases hOrg : c.org with
    | none => exact exec_part_none hOrg
    | some org =>
      obtain rfl := hScope (some org) (by rw [scope, hOrg]; rfl)
      rw [exec_part hApart h hOrg]
  frame now c s t t' h hScope hOther := by
    obtain ⟨org, hOrg, rfl⟩ := Option.map_eq_some_iff.mp hScope
    exact exec_frame hOrg hOther

end HrTables

end CyberAccountant.Hr
