import CyberAccountant.Library.Rows
import CyberAccountant.Library.Table
import CyberAccountant.Library.Transition
import Mathlib.Data.List.Nodup

/-! The last owner of an organisation.  A request that demotes or removes an owner counts the owners first,
in a transaction of its own; the deletion of a user takes his memberships with it and counts nothing. -/

namespace CyberAccountant.Tenancy

open CyberAccountant.Library

/-! ### Memberships -/

inductive OrgRole where
  | owner
  | accountant
  | hr
  | viewer
  | agent
  deriving DecidableEq

/-- The roles that a request may name. -/
def isValidRole (role : OrgRole) : Bool := role != .agent

structure OrgMember (Org User : Type) where
  org : Org
  user : User
  role : OrgRole
  deriving DecidableEq

namespace OrgMember

variable {Org User : Type}

def key (m : OrgMember Org User) : Org × User := (m.org, m.user)

end OrgMember

/-- The table `org_members` with its unique key. -/
structure OrgMembers (Org User : Type) where
  rows : List (OrgMember Org User)
  unique : (rows.map OrgMember.key).Nodup

namespace OrgMembers

variable {Org User : Type} [DecidableEq Org] [DecidableEq User]

def findMembership (t : OrgMembers Org User) (org : Org) (user : User) : Option (OrgMember Org User) :=
  rowOf OrgMember.key t.rows (org, user)

def listMembers (t : OrgMembers Org User) (org : Org) : List (OrgMember Org User) :=
  t.rows.filter (·.org = org)

def countOwners (t : OrgMembers Org User) (org : Org) : Nat :=
  ((t.listMembers org).filter (·.role = .owner)).length

/-- The insert; without effect when the user has a membership. -/
def add (t : OrgMembers Org User) (org : Org) (user : User) (role : OrgRole) : OrgMembers Org User :=
  if hNew : t.findMembership org user = none then
    { rows := t.rows ++ [⟨org, user, role⟩]
      unique := by
        have hOld : (org, user) ∉ t.rows.map OrgMember.key := by
          intro hIn
          obtain ⟨m, hm, hKey⟩ := List.mem_map.mp hIn
          exact rowOf_eq_none.mp hNew m hm hKey
        rw [List.map_append]
        apply List.nodup_append.mpr
        refine ⟨t.unique, List.nodup_singleton _, fun k hk k' hk' hEq => hOld ?_⟩
        obtain rfl := hEq.trans (List.mem_singleton.mp hk')
        exact hk }
  else t

def setRole (t : OrgMembers Org User) (org : Org) (user : User) (role : OrgRole) : OrgMembers Org User where
  rows := changeRow OrgMember.key t.rows (org, user) fun m => { m with role := role }
  unique := by
    have hKeys : (changeRow OrgMember.key t.rows (org, user) fun m => { m with role := role }).map
        OrgMember.key = t.rows.map OrgMember.key := by
      rw [changeRow, List.map_map]
      apply List.map_congr_left
      intro m _
      show OrgMember.key (if m.key = (org, user) then _ else m) = m.key
      split <;> rfl
    rw [hKeys]
    exact t.unique

def without (t : OrgMembers Org User) (drop : OrgMember Org User → Bool) : OrgMembers Org User where
  rows := t.rows.filter (!drop ·)
  unique := t.unique.sublist (List.filter_sublist.map _)

def remove (t : OrgMembers Org User) (org : Org) (user : User) : OrgMembers Org User :=
  t.without fun m => m.key = (org, user)

/-- The cascade of a deletion from `users`. -/
def cascade (t : OrgMembers Org User) (user : User) : OrgMembers Org User :=
  t.without fun m => m.user = user

def HasOwner (t : OrgMembers Org User) (org : Org) : Prop :=
  ∃ m ∈ t.rows, m.org = org ∧ m.role = .owner

/-- What the protection refuses: the user is an owner and no other is counted. -/
def LastOwner (t : OrgMembers Org User) (org : Org) (user : User) : Prop :=
  (∃ m, t.findMembership org user = some m ∧ m.role = .owner) ∧ t.countOwners org ≤ 1

end OrgMembers

/-! ### The requests -/

section

variable (Org User : Type)

/-- The transaction that writes. -/
inductive MemberWrite where
  | add (org : Org) (user : User) (role : OrgRole)
  | setRole (org : Org) (user : User) (role : OrgRole)
  | remove (org : Org) (user : User)
  | deleteUser (user : User)

/-- A request about a membership: the role to set, or none to remove it. -/
structure MemberEdit where
  org : Org
  user : User
  newRole : Option OrgRole

inductive MemberStage where
  | looking (e : MemberEdit Org User)
  | counting (e : MemberEdit Org User)
  | writing (w : MemberWrite Org User)
  | answered

structure Tenants where
  users : List User
  members : OrgMembers Org User
  requests : Table Nat (MemberStage Org User)

end

variable {Org User : Type}

def updateMemberRole (org : Org) (user : User) (role : OrgRole) : MemberEdit Org User := ⟨org, user, some role⟩

def removeMember (org : Org) (user : User) : MemberEdit Org User := ⟨org, user, none⟩

namespace MemberEdit

def write (e : MemberEdit Org User) : MemberWrite Org User :=
  match e.newRole with
  | some role => .setRole e.org e.user role
  | none => .remove e.org e.user

def demotes (e : MemberEdit Org User) (target : OrgMember Org User) : Bool :=
  target.role = .owner ∧ e.newRole ≠ some .owner

variable [DecidableEq Org] [DecidableEq User]

/-- `find_membership`, and on to the count or the write. -/
def look (e : MemberEdit Org User) (t : OrgMembers Org User) : MemberStage Org User :=
  match t.findMembership e.org e.user with
  | none => .answered
  | some target => if e.demotes target then .counting e else .writing e.write

/-- `count_owners`, and on to the refusal or the write. -/
def count (e : MemberEdit Org User) (t : OrgMembers Org User) : MemberStage Org User :=
  if t.countOwners e.org ≤ 1 then .answered else .writing e.write

end MemberEdit

section

variable [DecidableEq Org] [DecidableEq User]

namespace Tenants

def goto (s : Tenants Org User) (n : Nat) (stage : MemberStage Org User) : Tenants Org User :=
  { s with requests := s.requests.put n stage }

def run (s : Tenants Org User) : MemberWrite Org User → Tenants Org User
  | .add org user role =>
    if user ∈ s.users then { s with members := s.members.add org user role } else s
  | .setRole org user role => { s with members := s.members.setRole org user role }
  | .remove org user => { s with members := s.members.remove org user }
  | .deleteUser user =>
    { s with users := s.users.filter (· ≠ user), members := s.members.cascade user }

end Tenants

/-- One transaction of request `n`.  `May` says which writes are looked at. -/
inductive TenantStep (May : OrgMembers Org User → MemberWrite Org User → Prop) :
    Tenants Org User → Tenants Org User → Prop where
  | addMember (s : Tenants Org User) (n : Nat) (org : Org) (user : User) (role : OrgRole)
      (hFree : s.requests n = none) (hRole : isValidRole role = true) :
      TenantStep May s (s.goto n (.writing (.add org user role)))
  | updateMemberRole (s : Tenants Org User) (n : Nat) (org : Org) (user : User) (role : OrgRole)
      (hFree : s.requests n = none) (hRole : isValidRole role = true) :
      TenantStep May s (s.goto n (.looking (updateMemberRole org user role)))
  | removeMember (s : Tenants Org User) (n : Nat) (org : Org) (user : User)
      (hFree : s.requests n = none) : TenantStep May s (s.goto n (.looking (removeMember org user)))
  /-- An admin deletes a user other than himself. -/
  | deleteUser (s : Tenants Org User) (n : Nat) (actor : Option User) (user : User)
      (hFree : s.requests n = none) (hOther : actor ≠ some user) :
      TenantStep May s (s.goto n (.writing (.deleteUser user)))
  | look (s : Tenants Org User) (n : Nat) (e : MemberEdit Org User)
      (hStage : s.requests n = some (.looking e)) : TenantStep May s (s.goto n (e.look s.members))
  | count (s : Tenants Org User) (n : Nat) (e : MemberEdit Org User)
      (hStage : s.requests n = some (.counting e)) : TenantStep May s (s.goto n (e.count s.members))
  | write (s : Tenants Org User) (n : Nat) (w : MemberWrite Org User)
      (hStage : s.requests n = some (.writing w)) (hMay : May s.members w) :
      TenantStep May s ((s.run w).goto n .answered)
  /-- A transaction throws and leaves nothing. -/
  | fail (s : Tenants Org User) (n : Nat) (stage : MemberStage Org User)
      (hStage : s.requests n = some stage) : TenantStep May s (s.goto n .answered)

end

/-! ### What a write leaves of the owners -/

namespace OrgMembers

variable [DecidableEq Org] [DecidableEq User] {t : OrgMembers Org User} {org : Org} {user : User}
  {role : OrgRole} {m m' : OrgMember Org User}

def owners (t : OrgMembers Org User) (org : Org) : List (OrgMember Org User) :=
  (t.listMembers org).filter (·.role = .owner)

omit [DecidableEq User] in
@[simp] theorem mem_owners : m ∈ t.owners org ↔ m ∈ t.rows ∧ m.org = org ∧ m.role = .owner := by
  simp [owners, listMembers, and_comm]

omit [DecidableEq User] in
theorem countOwners_eq : t.countOwners org = (t.owners org).length := rfl

omit [DecidableEq User] in
theorem hasOwner_iff : t.HasOwner org ↔ ∃ m, m ∈ t.owners org := by
  simp only [HasOwner, mem_owners]

omit [DecidableEq Org] [DecidableEq User] in
theorem key_inj (hm : m ∈ t.rows) (hm' : m' ∈ t.rows) (hKey : m.key = m'.key) : m = m' :=
  List.inj_on_of_nodup_map t.unique hm hm' hKey

omit [DecidableEq User] in
theorem owners_nodup : (t.owners org).Nodup :=
  (t.unique.of_map.sublist List.filter_sublist).sublist List.filter_sublist

theorem find_of_mem (hm : m ∈ t.rows) : t.findMembership m.org m.user = some m := by
  cases hFind : t.findMembership m.org m.user with
  | none => exact absurd rfl (rowOf_eq_none.mp hFind m hm)
  | some found => rw [key_inj (rowOf_mem hFind) hm (rowOf_key hFind)]

theorem lastOwner_iff : t.LastOwner org user ↔
    ∃ m ∈ t.owners org, m.user = user ∧ ∀ m' ∈ t.owners org, m' = m := by
  constructor
  · rintro ⟨⟨m, hFind, hRole⟩, hCount⟩
    have hKey := rowOf_key hFind
    have hOrg : m.org = org := congrArg Prod.fst hKey
    have hOwner : m ∈ t.owners org := mem_owners.mpr ⟨rowOf_mem hFind, hOrg, hRole⟩
    refine ⟨m, hOwner, congrArg Prod.snd hKey, fun m' hm' => ?_⟩
    rw [countOwners_eq] at hCount
    obtain ⟨only, hOnly⟩ := List.length_eq_one_iff.mp
      (Nat.le_antisymm hCount (List.length_pos_of_mem hOwner))
    rw [hOnly] at hm' hOwner
    exact (List.mem_singleton.mp hm').trans (List.mem_singleton.mp hOwner).symm
  · rintro ⟨m, hOwner, rfl, hOnly⟩
    obtain ⟨hm, rfl, hRole⟩ := mem_owners.mp hOwner
    refine ⟨⟨m, find_of_mem hm, hRole⟩, ?_⟩
    rw [countOwners_eq]
    have hReplicate := List.eq_replicate_iff.mpr ⟨rfl, hOnly⟩
    have hNodup : (t.owners m.org).Nodup := owners_nodup
    rw [hReplicate] at hNodup
    exact List.nodup_replicate.mp hNodup

theorem other_owner (hOwner : t.HasOwner org) (hNot : ¬t.LastOwner org user) :
    ∃ m ∈ t.owners org, m.user ≠ user := by
  by_contra hNone
  have hAll : ∀ m ∈ t.owners org, m.user = user := by
    intro m hm
    by_contra hNe
    exact hNone ⟨m, hm, hNe⟩
  obtain ⟨m, hm⟩ := hasOwner_iff.mp hOwner
  apply hNot
  refine lastOwner_iff.mpr ⟨m, hm, hAll m hm, fun m' hm' => ?_⟩
  obtain ⟨hRow, hOrg, -⟩ := mem_owners.mp hm
  obtain ⟨hRow', hOrg', -⟩ := mem_owners.mp hm'
  apply key_inj hRow' hRow
  exact Prod.ext (hOrg'.trans hOrg.symm) ((hAll m' hm').trans (hAll m hm).symm)

theorem hasOwner_add (hOwner : t.HasOwner org) (org' : Org) : (t.add org' user role).HasOwner org := by
  obtain ⟨m, hm, hIs⟩ := hOwner
  unfold add
  split
  · exact ⟨m, List.mem_append_left _ hm, hIs⟩
  · exact ⟨m, hm, hIs⟩

omit [DecidableEq User] in
theorem hasOwner_without {drop : OrgMember Org User → Bool} :
    (t.without drop).HasOwner org ↔ ∃ m ∈ t.owners org, drop m = false := by
  simp only [HasOwner, without, List.mem_filter, mem_owners, Bool.not_eq_true']
  constructor
  · rintro ⟨m, ⟨hm, hKeep⟩, hIs⟩
    exact ⟨m, ⟨hm, hIs⟩, hKeep⟩
  · rintro ⟨m, ⟨hm, hIs⟩, hKeep⟩
    exact ⟨m, ⟨hm, hKeep⟩, hIs⟩

/-- A removal in an organisation leaves it an owner unless it is that of the last. -/
theorem hasOwner_remove_iff (hOwner : t.HasOwner org) :
    (t.remove org user).HasOwner org ↔ ¬t.LastOwner org user := by
  rw [remove, hasOwner_without]
  constructor
  · rintro ⟨m, hm, hKeep⟩ hLast
    obtain ⟨last, hIn, rfl, hOnly⟩ := lastOwner_iff.mp hLast
    obtain ⟨-, hOrg, -⟩ := mem_owners.mp hIn
    obtain rfl := hOnly m hm
    simp [OrgMember.key, hOrg] at hKeep
  · intro hNot
    obtain ⟨m, hm, hNe⟩ := other_owner hOwner hNot
    exact ⟨m, hm, by simp [OrgMember.key, hNe]⟩

theorem hasOwner_cascade_iff (hOwner : t.HasOwner org) :
    (t.cascade user).HasOwner org ↔ ¬t.LastOwner org user := by
  rw [cascade, hasOwner_without]
  constructor
  · rintro ⟨m, hm, hKeep⟩ hLast
    obtain ⟨last, -, rfl, hOnly⟩ := lastOwner_iff.mp hLast
    obtain rfl := hOnly m hm
    simp at hKeep
  · intro hNot
    obtain ⟨m, hm, hNe⟩ := other_owner hOwner hNot
    exact ⟨m, hm, by simpa using hNe⟩

theorem mem_setRole_of_ne {org' : Org} (hm : m ∈ t.rows) (hNe : m.key ≠ (org', user)) :
    m ∈ (t.setRole org' user role).rows :=
  mem_changeRow.mpr ⟨m, hm, (if_neg hNe).symm⟩

theorem hasOwner_setRole_iff (hOwner : t.HasOwner org) :
    (t.setRole org user role).HasOwner org ↔ role = .owner ∨ ¬t.LastOwner org user := by
  constructor
  · rintro ⟨m', hm', hOrg', hRole'⟩
    by_contra hBoth
    obtain ⟨hDemoted, hLast⟩ : role ≠ .owner ∧ t.LastOwner org user := by
      simpa using hBoth
    obtain ⟨last, -, hUser, hOnly⟩ := lastOwner_iff.mp hLast
    obtain ⟨m, hm, rfl⟩ := mem_changeRow.mp hm'
    by_cases hHere : m.key = (org, user)
    · rw [if_pos hHere] at hRole'
      exact hDemoted hRole'
    · rw [if_neg hHere] at hRole' hOrg'
      obtain rfl := hOnly m (mem_owners.mpr ⟨hm, hOrg', hRole'⟩)
      exact hHere (Prod.ext hOrg' hUser)
  · rintro (rfl | hNot)
    · obtain ⟨m, hm, hOrg, hRole⟩ := hOwner
      by_cases hHere : m.key = (org, user)
      · exact ⟨{ m with role := .owner }, mem_changeRow.mpr ⟨m, hm, (if_pos hHere).symm⟩, hOrg, rfl⟩
      · exact ⟨m, mem_setRole_of_ne hm hHere, hOrg, hRole⟩
    · obtain ⟨m, hIn, hNe⟩ := other_owner hOwner hNot
      obtain ⟨hm, hOrg, hRole⟩ := mem_owners.mp hIn
      have hElse : m.key ≠ (org, user) := fun hKey => hNe (congrArg Prod.snd hKey)
      exact ⟨m, mem_setRole_of_ne hm hElse, hOrg, hRole⟩

theorem hasOwner_setRole_ne {org' : Org} (hOwner : t.HasOwner org) (hNe : org ≠ org') :
    (t.setRole org' user role).HasOwner org := by
  obtain ⟨m, hm, rfl, hRole⟩ := hOwner
  have hElse : m.key ≠ (org', user) := fun hKey => hNe (congrArg Prod.fst hKey)
  exact ⟨m, mem_setRole_of_ne hm hElse, rfl, hRole⟩

theorem hasOwner_remove_ne {org' : Org} (hOwner : t.HasOwner org) (hNe : org ≠ org') :
    (t.remove org' user).HasOwner org := by
  rw [remove, hasOwner_without]
  obtain ⟨m, hm⟩ := hasOwner_iff.mp hOwner
  obtain ⟨-, rfl, -⟩ := mem_owners.mp hm
  exact ⟨m, hm, by simp [OrgMember.key, hNe]⟩

end OrgMembers

/-! ### Runs -/

section

variable [DecidableEq Org] [DecidableEq User]

/-- The last-owner protection passes the write on the table as it is now. -/
def StillPasses (t : OrgMembers Org User) : MemberWrite Org User → Prop
  | .add _ _ _ => True
  | .setRole org user role => role = .owner ∨ ¬t.LastOwner org user
  | .remove org user => ¬t.LastOwner org user
  | .deleteUser user => ∀ org, ¬t.LastOwner org user

theorem hasOwner_of_last {t : OrgMembers Org User} {org : Org} {user : User} (h : t.LastOwner org user) :
    t.HasOwner org := by
  obtain ⟨m, hm, -⟩ := OrgMembers.lastOwner_iff.mp h
  exact OrgMembers.hasOwner_iff.mpr ⟨m, hm⟩

/-- A write keeps every organisation an owner exactly when the protection passes it. -/
theorem run_keeps_iff (s : Tenants Org User) (w : MemberWrite Org User) :
    (∀ org, s.members.HasOwner org → (s.run w).members.HasOwner org) ↔ StillPasses s.members w := by
  cases w with
  | add org' user role =>
    refine iff_of_true (fun org hOwner => ?_) trivial
    show (if user ∈ s.users then _ else s : Tenants Org User).members.HasOwner org
    split
    · exact OrgMembers.hasOwner_add hOwner org'
    · exact hOwner
  | setRole org' user role =>
    constructor
    · intro hKeeps
      by_contra hBoth
      have hLast : s.members.LastOwner org' user := not_not.mp fun hNot => hBoth (.inr hNot)
      have hOwner := hasOwner_of_last hLast
      exact hBoth ((OrgMembers.hasOwner_setRole_iff hOwner).mp (hKeeps org' hOwner))
    · intro hPasses org hOwner
      by_cases hHere : org = org'
      · subst hHere
        exact (OrgMembers.hasOwner_setRole_iff hOwner).mpr hPasses
      · exact OrgMembers.hasOwner_setRole_ne hOwner hHere
  | remove org' user =>
    constructor
    · intro hKeeps hLast
      have hOwner := hasOwner_of_last hLast
      exact (OrgMembers.hasOwner_remove_iff hOwner).mp (hKeeps org' hOwner) hLast
    · intro hPasses org hOwner
      by_cases hHere : org = org'
      · subst hHere
        exact (OrgMembers.hasOwner_remove_iff hOwner).mpr hPasses
      · exact OrgMembers.hasOwner_remove_ne hOwner hHere
  | deleteUser user =>
    constructor
    · intro hKeeps org hLast
      have hOwner := hasOwner_of_last hLast
      exact (OrgMembers.hasOwner_cascade_iff hOwner).mp (hKeeps org hOwner) hLast
    · intro hPasses org hOwner
      exact (OrgMembers.hasOwner_cascade_iff hOwner).mpr (hPasses org)

theorem hasOwner_step {org : Org} (s s' : Tenants Org User) (hOwner : s.members.HasOwner org)
    (hStep : TenantStep StillPasses s s') : s'.members.HasOwner org := by
  cases hStep with
  | addMember => exact hOwner
  | updateMemberRole => exact hOwner
  | removeMember => exact hOwner
  | deleteUser => exact hOwner
  | look => exact hOwner
  | count => exact hOwner
  | write n w hStage hMay => exact (run_keeps_iff s w).mpr hMay org hOwner
  | fail => exact hOwner

end

def twoOwners : Tenants Nat Nat where
  users := [1, 2]
  members := ⟨[⟨0, 1, .owner⟩, ⟨0, 2, .owner⟩], by decide⟩
  requests := Table.empty

theorem twoOwners_hasOwner : twoOwners.members.HasOwner 0 :=
  ⟨⟨0, 1, .owner⟩, List.mem_cons_self, rfl, rfl⟩

def demote (user : Nat) : MemberEdit Nat Nat := updateMemberRole 0 user .viewer

end CyberAccountant.Tenancy
