import CyberAccountant.Library.Table
import CyberAccountant.Library.Transition
import Mathlib.Data.BitVec

/-! Roles and the users that hold them, under the administration's requests: whether one role stays the
default and whether an admin stays. -/

namespace CyberAccountant.Admin

open CyberAccountant.Library

/-! ### Roles -/

/-- `kAdminister`, a bit of its own. -/
def administer : BitVec 32 := 0x40000000#32

structure Role where
  name : String
  permissions : BitVec 32
  isDefault : Bool
  deriving DecidableEq

namespace Role

def has (role : Role) (perm : BitVec 32) : Bool := role.permissions &&& perm = perm

def isAdmin (role : Role) : Bool := role.has administer

/-- The `COALESCE`s of an update. -/
def patch (role : Role) (name : Option String) (permissions : Option (BitVec 32)) (isDefault : Option Bool) :
    Role :=
  ⟨name.getD role.name, permissions.getD role.permissions, isDefault.getD role.isDefault⟩

end Role

/-- The mask of a request's number, which is cast to 32 bits. -/
def permissionsOf (n : Int) : BitVec 32 := BitVec.ofInt 32 n

def Carries (P : Role → Bool) (roles : Table Nat Role) (id : Nat) : Prop :=
  ∃ role, roles id = some role ∧ P role = true

/-- No role is the default any longer. -/
def clearDefault (roles : Table Nat Role) : Table Nat Role :=
  fun id => (roles id).map fun role => { role with isDefault := false }

/-! ### Users and requests -/

section

variable (User : Type)

/-- The transaction that writes. -/
inductive AdminWrite where
  | createRole (name : String) (permissions : BitVec 32) (isDefault : Bool)
  | updateRole (id : Nat) (name : Option String) (permissions : Option (BitVec 32))
    (isDefault : Option Bool)
  | removeRole (id : Nat)
  | adminUpdate (user : User) (role : Option Nat)
  | removeUser (user : User)

inductive AdminStage where
  | findingRole (user : User) (role : Nat)
  | findingExisting (id : Nat)
  | writing (w : AdminWrite User)
  | answered

structure Platform where
  roles : Table Nat Role
  /-- The sequence of the roles' ids. -/
  nextRole : Nat
  users : Table User Nat
  requests : Table Nat (AdminStage User)

end

variable {User : Type}

namespace Platform

def goto (p : Platform User) (n : Nat) (stage : AdminStage User) : Platform User :=
  { p with requests := p.requests.put n stage }

def IsDefault (p : Platform User) (id : Nat) : Prop := Carries Role.isDefault p.roles id

def IsAdminBy (p : Platform User) (user : User) (id : Nat) : Prop :=
  p.users user = some id ∧ Carries Role.isAdmin p.roles id

def IsAdmin (p : Platform User) (user : User) : Prop := ∃ id, p.IsAdminBy user id

def OneDefault (p : Platform User) : Prop := ∃ id, p.IsDefault id ∧ ∀ id', p.IsDefault id' → id' = id

def HasAdmin (p : Platform User) : Prop := ∃ user, p.IsAdmin user

end Platform

variable [DecidableEq User]

/-- The commit of a transaction; one that finds what a constructor asks for missing is rolled back. -/
inductive Commit (p : Platform User) : AdminWrite User → Platform User → Prop where
  | createRole (name : String) (permissions : BitVec 32) (isDefault : Bool)
      (hName : ∀ id role, p.roles id = some role → role.name ≠ name) (hFree : p.roles p.nextRole = none) :
      Commit p (.createRole name permissions isDefault)
        { p with
          roles := (if isDefault then clearDefault p.roles else p.roles).put p.nextRole
            ⟨name, permissions, isDefault⟩
          nextRole := p.nextRole + 1 }
  | updateRole (id : Nat) (role : Role) (name : Option String) (permissions : Option (BitVec 32))
      (isDefault : Option Bool) (hRole : p.roles id = some role)
      (hName : ∀ id' role', id' ≠ id → p.roles id' = some role' → name ≠ some role'.name) :
      Commit p (.updateRole id name permissions isDefault)
        { p with
          roles := (if isDefault = some true then clearDefault p.roles else p.roles).put id
            (role.patch name permissions isDefault) }
  | removeRole (id : Nat) (role : Role) (hRole : p.roles id = some role)
      (hUnused : ∀ user, p.users user ≠ some id) :
      Commit p (.removeRole id) { p with roles := p.roles.drop id }
  | adminUpdate (user : User) (old : Nat) (new : Option Nat) (hUser : p.users user = some old)
      (hRole : ∀ id, new = some id → p.roles id ≠ none) :
      Commit p (.adminUpdate user new) { p with users := p.users.put user (new.getD old) }
  | removeUser (user : User) (old : Nat) (hUser : p.users user = some old) :
      Commit p (.removeUser user) { p with users := p.users.drop user }

/-- One transaction of request `n`, which an admin has sent.  `May` says which commits are looked at. -/
inductive PlatformStep (May : Platform User → AdminWrite User → Prop) :
    Platform User → Platform User → Prop where
  | createRole (p : Platform User) (n : Nat) (actor : User) (name : String) (permissions : Int)
      (isDefault : Bool) (hFree : p.requests n = none) (hActor : p.IsAdmin actor) :
      PlatformStep May p (p.goto n (.writing (.createRole name (permissionsOf permissions) isDefault)))
  | updateRole (p : Platform User) (n : Nat) (actor : User) (id : Nat) (name : Option String)
      (permissions : Option Int) (isDefault : Option Bool) (hFree : p.requests n = none)
      (hActor : p.IsAdmin actor) (hSome : name ≠ none ∨ permissions ≠ none ∨ isDefault ≠ none) :
      PlatformStep May p
        (p.goto n (.writing (.updateRole id name (permissions.map permissionsOf) isDefault)))
  | deleteRole (p : Platform User) (n : Nat) (actor : User) (id : Nat) (hFree : p.requests n = none)
      (hActor : p.IsAdmin actor) : PlatformStep May p (p.goto n (.findingExisting id))
  /-- An admin does not change the role of his own account. -/
  | updateUserRole (p : Platform User) (n : Nat) (actor user : User) (role : Nat)
      (hFree : p.requests n = none) (hActor : p.IsAdmin actor) (hOther : actor ≠ user) :
      PlatformStep May p (p.goto n (.findingRole user role))
  | updateUser (p : Platform User) (n : Nat) (actor user : User) (hFree : p.requests n = none)
      (hActor : p.IsAdmin actor) : PlatformStep May p (p.goto n (.writing (.adminUpdate user none)))
  | deleteUser (p : Platform User) (n : Nat) (actor user : User) (hFree : p.requests n = none)
      (hActor : p.IsAdmin actor) (hOther : actor ≠ user) :
      PlatformStep May p (p.goto n (.writing (.removeUser user)))
  | findRole (p : Platform User) (n : Nat) (user : User) (role : Nat)
      (hStage : p.requests n = some (.findingRole user role)) :
      PlatformStep May p (p.goto n (if (p.roles role).isNone then .answered
        else .writing (.adminUpdate user (some role))))
  | findExisting (p : Platform User) (n : Nat) (id : Nat)
      (hStage : p.requests n = some (.findingExisting id)) :
      PlatformStep May p (p.goto n (if (p.roles id).any Role.isDefault then .answered
        else .writing (.removeRole id)))
  | commit (p : Platform User) (n : Nat) (w : AdminWrite User) (p' : Platform User)
      (hStage : p.requests n = some (.writing w)) (hCommit : Commit p w p') (hMay : May p w) :
      PlatformStep May p (p'.goto n .answered)
  | rollback (p : Platform User) (n : Nat) (stage : AdminStage User)
      (hStage : p.requests n = some stage) : PlatformStep May p (p.goto n .answered)

def KeepsDefault (p : Platform User) : AdminWrite User → Prop
  | .updateRole id _ _ isDefault => isDefault = some false → ¬p.IsDefault id
  | .removeRole id => ¬p.IsDefault id
  | .createRole _ _ _ | .adminUpdate _ _ | .removeUser _ => True

/-- The commit leaves the admin permission where it is, or with someone else. -/
def KeepsAdmin (p : Platform User) : AdminWrite User → Prop
  | .updateRole id _ permissions _ => ∀ mask, permissions = some mask →
    mask &&& administer = administer ∨ ∃ user id', p.IsAdminBy user id' ∧ id' ≠ id
  | .adminUpdate user new => ∀ id, new = some id →
    Carries Role.isAdmin p.roles id ∨ ∃ other, p.IsAdmin other ∧ other ≠ user
  | .removeUser user => ∃ other, p.IsAdmin other ∧ other ≠ user
  | .createRole _ _ _ | .removeRole _ => True

def Harmless (p : Platform User) (w : AdminWrite User) : Prop := KeepsDefault p w ∧ KeepsAdmin p w

/-! ### What a commit leaves -/

section Tables

variable {P : Role → Bool} {roles : Table Nat Role} {id id' : Nat} {role : Role}

theorem carries_put : Carries P (roles.put id role) id' ↔
    id' = id ∧ P role = true ∨ id' ≠ id ∧ Carries P roles id' := by
  unfold Carries
  by_cases hHere : id' = id
  · simp [hHere]
  · simp [Table.put_ne hHere, hHere]

theorem carries_drop : Carries P (roles.drop id) id' ↔ id' ≠ id ∧ Carries P roles id' := by
  unfold Carries
  by_cases hHere : id' = id
  · simp [hHere]
  · simp [Table.drop_ne hHere, hHere]

theorem Carries.ne_of_free (h : Carries P roles id) (hFree : roles id' = none) : id ≠ id' := by
  rintro rfl
  obtain ⟨role, hRole, -⟩ := h
  rw [hFree] at hRole
  cases hRole

theorem not_default_clear : ¬Carries Role.isDefault (clearDefault roles) id := by
  rintro ⟨role, hRole, hIs⟩
  obtain ⟨old, -, rfl⟩ := Option.map_eq_some_iff.mp hRole
  cases hIs

theorem admin_clear : Carries Role.isAdmin (clearDefault roles) id ↔ Carries Role.isAdmin roles id := by
  constructor
  · rintro ⟨role, hRole, hIs⟩
    obtain ⟨old, hOld, rfl⟩ := Option.map_eq_some_iff.mp hRole
    exact ⟨old, hOld, hIs⟩
  · rintro ⟨role, hRole, hIs⟩
    exact ⟨_, Option.map_eq_some_iff.mpr ⟨role, hRole, rfl⟩, hIs⟩

theorem admin_cleared (b : Prop) [Decidable b] :
    Carries Role.isAdmin (if b then clearDefault roles else roles) id ↔ Carries Role.isAdmin roles id := by
  split
  · exact admin_clear
  · exact Iff.rfl

end Tables

section Commits

variable {p p' : Platform User} {w : AdminWrite User}

omit [DecidableEq User] in
/-- A commit that names a role the default leaves it as the only one. -/
theorem oneDefault_of_put {roles : Table Nat Role} {id : Nat} {role : Role} (hIs : role.isDefault = true)
    (hRoles : p.roles = (clearDefault roles).put id role) : p.OneDefault := by
  unfold Platform.OneDefault Platform.IsDefault
  rw [hRoles]
  refine ⟨id, carries_put.mpr (.inl ⟨rfl, hIs⟩), fun id' hDefault => ?_⟩
  rcases carries_put.mp hDefault with ⟨hSame, -⟩ | ⟨-, hOld⟩
  · exact hSame
  · exact absurd hOld not_default_clear

omit [DecidableEq User] in
theorem oneDefault_of_same (hDefault : p.OneDefault) (hSame : ∀ id, p'.IsDefault id ↔ p.IsDefault id) :
    p'.OneDefault := by
  obtain ⟨id, hIs, hOnly⟩ := hDefault
  exact ⟨id, (hSame id).mpr hIs, fun id' hIs' => hOnly id' ((hSame id').mp hIs')⟩

omit [DecidableEq User] in
/-- Without a flag that one role loses, the default stays the default exactly when it is another. -/
theorem oneDefault_of_lost {id : Nat} (hDefault : p.OneDefault)
    (hLost : ∀ id', p'.IsDefault id' ↔ id' ≠ id ∧ p.IsDefault id') : p'.OneDefault ↔ ¬p.IsDefault id := by
  constructor
  · rintro ⟨kept, hKept, -⟩ hIs
    obtain ⟨hNe, hOld⟩ := (hLost kept).mp hKept
    obtain ⟨only, -, hOnly⟩ := hDefault
    exact hNe ((hOnly kept hOld).trans (hOnly id hIs).symm)
  · intro hNot
    apply oneDefault_of_same hDefault
    intro id'
    rw [hLost id']
    exact and_iff_right_of_imp fun hIs hSame => hNot (hSame ▸ hIs)

theorem commit_default_iff (hCommit : Commit p w p') (hDefault : p.OneDefault) :
    p'.OneDefault ↔ KeepsDefault p w := by
  cases hCommit with
  | createRole name permissions isDefault hName hFree =>
    refine iff_of_true ?_ trivial
    cases isDefault with
    | true => exact oneDefault_of_put rfl rfl
    | false =>
      apply oneDefault_of_same hDefault
      intro id
      refine carries_put.trans ⟨?_, fun hIs => .inr ⟨hIs.ne_of_free hFree, hIs⟩⟩
      rintro (⟨-, hIs⟩ | ⟨-, hIs⟩)
      · cases hIs
      · exact hIs
  | updateRole id role name permissions isDefault hRole hName =>
    rcases isDefault with _ | _ | _
    · refine iff_of_true ?_ (fun h => nomatch h)
      apply oneDefault_of_same hDefault
      intro id'
      refine carries_put.trans ?_
      by_cases hHere : id' = id
      · subst hHere
        simp [Platform.IsDefault, Carries, hRole, Role.patch]
      · simp [Platform.IsDefault, hHere]
    · refine (oneDefault_of_lost hDefault fun id' => ?_).trans ⟨fun hNot _ => hNot, fun h => h rfl⟩
      refine carries_put.trans ⟨?_, .inr⟩
      rintro (⟨-, hIs⟩ | hOther)
      · cases hIs
      · exact hOther
    · exact iff_of_true (oneDefault_of_put rfl rfl) (fun h => nomatch h)
  | removeRole id role hRole hUnused => exact oneDefault_of_lost hDefault fun id' => carries_drop
  | adminUpdate user old new hUser hRole => exact iff_of_true hDefault trivial
  | removeUser user old hUser => exact iff_of_true hDefault trivial

omit [DecidableEq User] in
/-- A mask that an update writes decides over the admins of its role alone. -/
theorem admin_updateRole_iff (hAdmin : p.HasAdmin) {id : Nat} {role : Role} {name : Option String}
    {permissions : Option (BitVec 32)} {isDefault : Option Bool} (hRole : p.roles id = some role)
    (hUsers : p'.users = p.users) (hRoles : p'.roles =
      (if isDefault = some true then clearDefault p.roles else p.roles).put id
        (role.patch name permissions isDefault)) :
    p'.HasAdmin ↔ KeepsAdmin p (.updateRole id name permissions isDefault) := by
  obtain ⟨admin, adminRole, hUser, hIs⟩ := hAdmin
  have hBy : ∀ user id', p'.IsAdminBy user id' ↔ p.users user = some id' ∧
      (id' = id ∧ (role.patch name permissions isDefault).isAdmin = true ∨
        id' ≠ id ∧ Carries Role.isAdmin p.roles id') := by
    intro user id'
    rw [Platform.IsAdminBy, hUsers, hRoles, carries_put, admin_cleared]
  -- Where the written row is one of an admin, nobody stops being one.
  have hStays : (role.patch name permissions isDefault).isAdmin = true → p'.HasAdmin := by
    intro hBit
    refine ⟨admin, adminRole, (hBy admin adminRole).mpr ⟨hUser, ?_⟩⟩
    by_cases hHere : adminRole = id
    · exact .inl ⟨hHere, hBit⟩
    · exact .inr ⟨hHere, hIs⟩
  cases permissions with
  | none =>
    refine iff_of_true ?_ (fun _ h => nomatch h)
    by_cases hHere : adminRole = id
    · subst hHere
      obtain ⟨same, hSame, hBit⟩ := hIs
      obtain rfl := Option.some.inj (hRole.symm.trans hSame)
      exact hStays hBit
    · exact ⟨admin, adminRole, (hBy admin adminRole).mpr ⟨hUser, .inr ⟨hHere, hIs⟩⟩⟩
  | some mask =>
    have hMask : (role.patch name (some mask) isDefault).isAdmin = true ↔ mask &&& administer = administer :=
      decide_eq_true_iff
    constructor
    · rintro ⟨user, id', hAfter⟩ mask' hSame
      obtain rfl := Option.some.inj hSame
      obtain ⟨hHas, ⟨-, hBit⟩ | ⟨hNe, hOld⟩⟩ := (hBy user id').mp hAfter
      · exact .inl (hMask.mp hBit)
      · exact .inr ⟨user, id', ⟨hHas, hOld⟩, hNe⟩
    · intro hKeeps
      rcases hKeeps mask rfl with hBit | ⟨user, id', ⟨hHas, hOld⟩, hNe⟩
      · exact hStays (hMask.mpr hBit)
      · exact ⟨user, id', (hBy user id').mpr ⟨hHas, .inr ⟨hNe, hOld⟩⟩⟩

theorem admin_adminUpdate_iff (hAdmin : p.HasAdmin) {user : User} {old : Nat} {new : Option Nat}
    (hOld : p.users user = some old) (hUsers : p'.users = p.users.put user (new.getD old))
    (hRoles : p'.roles = p.roles) : p'.HasAdmin ↔ KeepsAdmin p (.adminUpdate user new) := by
  obtain ⟨admin, adminRole, hUser, hIs⟩ := hAdmin
  have hBy : ∀ other id', p'.IsAdminBy other id' ↔
      (other = user ∧ new.getD old = id' ∨ other ≠ user ∧ p.users other = some id') ∧
        Carries Role.isAdmin p.roles id' := by
    intro other id'
    rw [Platform.IsAdminBy, hUsers, hRoles, Table.put_eq_some]
  cases new with
  | none =>
    refine iff_of_true ⟨admin, adminRole, (hBy admin adminRole).mpr ⟨?_, hIs⟩⟩ (fun _ h => nomatch h)
    by_cases hHere : admin = user
    · subst hHere
      exact .inl ⟨rfl, Option.some.inj (hOld.symm.trans hUser)⟩
    · exact .inr ⟨hHere, hUser⟩
  | some id =>
    constructor
    · rintro ⟨other, id', hAfter⟩ asked hAsked
      obtain rfl := Option.some.inj hAsked
      obtain ⟨⟨-, rfl⟩ | ⟨hNe, hStill⟩, hCarries⟩ := (hBy other id').mp hAfter
      · exact .inl hCarries
      · exact .inr ⟨other, ⟨id', hStill, hCarries⟩, hNe⟩
    · intro hKeeps
      rcases hKeeps id rfl with hCarries | ⟨other, ⟨id', hHas, hCarries⟩, hNe⟩
      · exact ⟨user, id, (hBy user id).mpr ⟨.inl ⟨rfl, rfl⟩, hCarries⟩⟩
      · exact ⟨other, id', (hBy other id').mpr ⟨.inr ⟨hNe, hHas⟩, hCarries⟩⟩

theorem commit_admin_iff (hCommit : Commit p w p') (hAdmin : p.HasAdmin) :
    p'.HasAdmin ↔ KeepsAdmin p w := by
  cases hCommit with
  | createRole name permissions isDefault hName hFree =>
    obtain ⟨admin, adminRole, hUser, hIs⟩ := hAdmin
    have hStill := (admin_cleared (isDefault = true)).mpr hIs
    exact iff_of_true ⟨admin, adminRole, hUser, carries_put.mpr (.inr ⟨hIs.ne_of_free hFree, hStill⟩)⟩ trivial
  | updateRole id role name permissions isDefault hRole hName =>
    exact admin_updateRole_iff hAdmin hRole rfl rfl
  | removeRole id role hRole hUnused =>
    obtain ⟨admin, adminRole, hUser, hIs⟩ := hAdmin
    refine iff_of_true ⟨admin, adminRole, hUser, carries_drop.mpr ⟨?_, hIs⟩⟩ trivial
    rintro rfl
    exact hUnused admin hUser
  | adminUpdate user old new hOld hRole => exact admin_adminUpdate_iff hAdmin hOld rfl rfl
  | removeUser user old hOld =>
    constructor
    · rintro ⟨other, id', hHas, hCarries⟩
      obtain ⟨hNe, hStill⟩ := Table.drop_eq_some.mp hHas
      exact ⟨other, ⟨id', hStill, hCarries⟩, hNe⟩
    · rintro ⟨other, ⟨id', hHas, hCarries⟩, hNe⟩
      exact ⟨other, id', Table.drop_eq_some.mpr ⟨hNe, hHas⟩, hCarries⟩

omit [DecidableEq User] in
/-- While the admin who sent a request about another user is one, it leaves him. -/
theorem keepsAdmin_of_actor {actor user : User} (hActor : p.IsAdmin actor) (hOther : actor ≠ user) :
    KeepsAdmin p (.removeUser user) ∧ ∀ new, KeepsAdmin p (.adminUpdate user new) :=
  ⟨⟨actor, hActor, hOther⟩, fun _ _ _ => .inr ⟨actor, hActor, hOther⟩⟩

end Commits

/-! ### Runs -/

theorem platform_step (p p' : Platform User) (hOk : p.OneDefault ∧ p.HasAdmin)
    (hStep : PlatformStep Harmless p p') : p'.OneDefault ∧ p'.HasAdmin := by
  cases hStep with
  | createRole => exact hOk
  | updateRole => exact hOk
  | deleteRole => exact hOk
  | updateUserRole => exact hOk
  | updateUser => exact hOk
  | deleteUser => exact hOk
  | findRole => exact hOk
  | findExisting => exact hOk
  | commit n w p' hStage hCommit hMay =>
    exact ⟨(commit_default_iff hCommit hOk.1).mpr hMay.1, (commit_admin_iff hCommit hOk.2).mpr hMay.2⟩
  | rollback => exact hOk

def seeded : Platform Nat where
  roles := (Table.empty.put 1 ⟨"User", 1#32, true⟩).put 2 ⟨"Administrator", administer, false⟩
  nextRole := 3
  users := Table.empty.put 7 2
  requests := Table.empty

theorem seeded_admin : seeded.IsAdmin 7 := ⟨2, rfl, _, rfl, by decide⟩

theorem seeded_oneDefault : seeded.OneDefault := by
  refine ⟨1, ⟨_, rfl, rfl⟩, fun id hDefault => ?_⟩
  rcases carries_put.mp hDefault with ⟨-, hIs⟩ | ⟨-, hOld⟩
  · cases hIs
  · rcases carries_put.mp hOld with ⟨hSame, -⟩ | ⟨-, role, hNone, -⟩
    · exact hSame
    · cases hNone

end CyberAccountant.Admin
