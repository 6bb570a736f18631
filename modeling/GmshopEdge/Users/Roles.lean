import GmshopEdge.Db.Schema
import GmshopEdge.Lib.Guarantee

/-!
# Users and roles

The operations that write a user's roles, whether a user is enabled, or a role
(`users/server/role-assignments.ts`, `users/server/users.ts`, `access/server/role-enabled.ts`, the role
editor of `access/server/admin.ts`, `customers/server/update.ts`, and the three ways an account comes
to be).

Role ids are stored as a list; only the columns that these functions decide by are kept. A password
reset writes accounts and sessions and is left out, as are audit rows and `updated_at`.
-/

namespace Gmshop

open Sql Stmt Prog

/-! ## Tables -/

/-- `root`, `customer` and `guest` are reserved: the role editor does not take them. -/
inductive RoleName where
  | root
  | customer
  | guest
  | custom (name : Nat)
  deriving DecidableEq

structure Role where
  id : Id
  name : RoleName
  builtIn : Bool
  enabled : Bool

structure SystemUser where
  id : Id
  email : Nat
  enabled : Bool
  roleIds : List Id

instance : KeyedRow Role where
  clash a b := a.id == b.id || a.name == b.name
  key := Role.id
  clash_of_key a b h := by simp [h]

instance : KeyedRow SystemUser where
  clash a b := a.id == b.id || a.email == b.email
  key := SystemUser.id
  clash_of_key a b h := by simp [h]

structure Directory where
  users : Table SystemUser
  roles : Table Role

namespace Directory

def usersT : TableRef Directory SystemUser := ⟨Directory.users, fun s t => { s with users := t }, fun _ _ => rfl⟩

def rolesT : TableRef Directory Role := ⟨Directory.roles, fun s t => { s with roles := t }, fun _ _ => rfl⟩

/-- `EXISTS (SELECT 1 FROM json_each(role_ids) JOIN roles … WHERE name = 'root' AND enabled = 1)`. -/
def isRoot (s : Directory) (roleIds : List Id) : Bool :=
  roleIds.any fun id => (s.roles.get? id).any fun r => r.name == .root && r.enabled

def isEnabledRootUser (s : Directory) (userId : Id) : Bool :=
  (s.users.get? userId).any fun u => u.enabled && s.isRoot u.roleIds

def customerRole (s : Directory) : Option Role :=
  s.roles.rows.find? fun r => r.name == .customer && r.builtIn && r.enabled

end Directory

inductive UserSite where
  | replaceUserRoles (userId currentUserId : Id)
  | createUser (userId : Id)
  | updateUser (userId : Id)
  | enableUser (userId : Id)
  | disableUser (userId : Id)
  | deleteUser (userId : Id)
  | updateCustomer (userId : Id)
  | registerUser (userId : Id)
  | assignCustomerRole (userId : Id)
  | dropRegistration (userId : Id)
  | ensureTelegramUser (userId : Id)
  | saveRole (roleId : Id)
  | setRoleEnabled (roleId : Id)
  | deleteRole (roleId : Id)
  deriving DecidableEq

/-- What a call throws: a domain error, a refused input, or an error of the sign-up. -/
inductive UserError where
  | domain (e : DomainError)
  | invalidInput
  | customerRoleUnavailable
  | error (message : String)

abbrev UserProg := Prog Directory UserSite UserError

/-! ## `root-protection.ts` -/

structure RootUserState where
  enabled : Bool
  isRoot : Bool

def loadRootUserState (s : Directory) (userId : Id) : Option RootUserState :=
  (s.users.get? userId).map fun u => ⟨u.enabled, s.isRoot u.roleIds⟩

def userNotFound : DomainError := ⟨"user_not_found", 404, "User not found"⟩

def customerNotFound : DomainError := ⟨"customer_not_found", 404, "User not found"⟩

def rootUserImmutable : DomainError :=
  ⟨"root_user_immutable", 409, "Root users cannot be edited or deleted"⟩

def rootRoleRequired : DomainError :=
  ⟨"root_role_required", 403, "Only an enabled root user can change the root role"⟩

def requireMutableNonRootUser (userId : Id) (notFound : DomainError := userNotFound) : UserProg Bool := do
  let state ← query fun s => loadRootUserState s userId
  match state with
  | none => throw (.domain notFound)
  | some state => if state.isRoot then throw (.domain rootUserImmutable) else .done state.enabled

/-! ## `role-assignments.ts` -/

def normalizeRoleIds (input : List Id) : Option (List Id) :=
  if 32 < input.length then none else some (input.dedup.mergeSort fun a b => decide (a ≤ b))

/-- Whether root is among the requested roles, which must exist, be enabled and not be `guest`. -/
def requestedRoles (roleIds : List Id) : UserProg Bool :=
  if roleIds = [] then .done false
  else do
    let roles ← query fun s : Directory => s.roles.rows.filter fun r => r.enabled && roleIds.contains r.id
    if roles.length ≠ roleIds.length ∨ roles.any (·.name == .guest) then
      throw (.domain ⟨"user_role_ids_invalid", 400, "Roles must exist, be enabled, and cannot include guest"⟩)
    else .done (roles.any (·.name == .root))

/-- The WHERE of the update: root changes only by an enabled root, and an enabled root who loses it
leaves another. -/
def replaceGuard (userId : Id) (next : List Id) (currentUserId : Id) (s : Directory) (u : SystemUser) : Bool :=
  u.id == userId && ((!s.isRoot u.roleIds && !s.isRoot next) || s.isEnabledRootUser currentUserId) &&
    (!u.enabled || !s.isRoot u.roleIds || s.isRoot next ||
      s.users.exist fun other => other.id != u.id && other.enabled && s.isRoot other.roleIds)

def replaceUserRolesAtomically (userId : Id) (roleIds : List Id) (currentUserId : Id) : UserProg (Id × List Id) :=
  if userId = currentUserId then
    throw (.domain ⟨"cannot_change_own_roles", 409, "You cannot change the roles of your own account"⟩)
  else match normalizeRoleIds roleIds with
  | none => throw .invalidInput
  | some roleIds => do
    let nextIncludesRoot ← requestedRoles roleIds
    let targetBefore ← query fun s => loadRootUserState s userId
    match targetBefore with
    | none => throw (.domain userNotFound)
    | some target => do
      let actorIsRoot ← query fun s => s.isEnabledRootUser currentUserId
      if (target.isRoot || nextIncludesRoot) && !actorIsRoot then throw (.domain rootRoleRequired)
      else do
        let changes ← commit (.replaceUserRoles userId currentUserId)
          [update Directory.usersT (replaceGuard userId roleIds currentUserId)
            fun _ u => { u with roleIds := roleIds }]
        if changes ≠ [1] then do
          let target ← query fun s => loadRootUserState s userId
          match target with
          | none => throw (.domain userNotFound)
          | some target => do
            let actorIsRoot ← query fun s => s.isEnabledRootUser currentUserId
            if (target.isRoot || nextIncludesRoot) && !actorIsRoot then throw (.domain rootRoleRequired)
            else throw (.domain ⟨"last_root_required", 409, "The last enabled root user cannot lose the root role"⟩)
        else do
          let actual ← query fun s => s.users.get? userId
          match actual with
          | none => throw (.domain userNotFound)
          | some u => .done (userId, u.roleIds)

/-! ## `users.ts` -/

def emailInUse : DomainError := ⟨"email_in_use", 409, "Email is already used"⟩

def createUser (userId email : Nat) (enabled : Bool) : UserProg Id := do
  let changes ← commit (.createUser userId)
    [insert Directory.usersT .doNothing fun _ => [⟨userId, email, enabled, []⟩]]
  if changes ≠ [1] then throw (.domain emailInUse) else .done userId

def disableUserAtomically (userId currentUserId : Id) : UserProg Unit :=
  if userId = currentUserId then
    throw (.domain ⟨"cannot_disable_self", 409, "Cannot disable your own account"⟩)
  else do
    let _ ← requireMutableNonRootUser userId
    let changes ← commit (.disableUser userId)
      [update Directory.usersT (fun s u => u.id == userId && u.enabled && !s.isRoot u.roleIds)
        fun _ u => { u with enabled := false }]
    if changes = [1] then .done ()
    else do
      let enabled ← requireMutableNonRootUser userId
      if enabled then throw (.error "Enabled user was not disabled") else .done ()

def updateUser (userId email : Nat) (enabled : Bool) (currentUserId : Id) : UserProg Id := do
  if enabled then (requireMutableNonRootUser userId).void else disableUserAtomically userId currentUserId
  let changes ← commit (.updateUser userId) [update Directory.usersT (fun s u => u.id == userId &&
        !s.users.exist (fun other => other.email == email && other.id != userId) && !s.isRoot u.roleIds)
      fun _ u => { u with email := email, enabled := if enabled then true else u.enabled }]
  if changes ≠ [1] then do
    let existing ← query fun s => s.users.get? userId
    match existing with
    | none => throw (.domain userNotFound)
    | some _ => do
      let _ ← requireMutableNonRootUser userId
      throw (.domain emailInUse)
  else .done userId

def setUserEnabled (userId : Id) (enabled : Bool) (currentUserId : Id) : UserProg Id :=
  if enabled then do
    let _ ← requireMutableNonRootUser userId
    let changes ← commit (.enableUser userId)
      [update Directory.usersT (fun s u => u.id == userId && !s.isRoot u.roleIds)
        fun _ u => { u with enabled := true }]
    if changes ≠ [1] then do
      let _ ← requireMutableNonRootUser userId
      .done userId
    else .done userId
  else do
    disableUserAtomically userId currentUserId
    .done userId

def deleteUser (userId currentUserId : Id) : UserProg Id :=
  if userId = currentUserId then
    throw (.domain ⟨"cannot_delete_self", 409, "Cannot delete your own account"⟩)
  else do
    let _ ← requireMutableNonRootUser userId
    let changes ← commit (.deleteUser userId)
      [delete Directory.usersT fun s u => u.id == userId && !s.isRoot u.roleIds]
    if changes ≠ [1] then do
      let existing ← query fun s => s.users.get? userId
      match existing with
      | none => .done userId
      | some _ => do
        let _ ← requireMutableNonRootUser userId
        .done userId
    else .done userId

/-- `updateCustomerRecord`: a customer is active or disabled. -/
def updateCustomerRecord (userId : Id) (active : Bool) : UserProg Id := do
  let before ← query fun s => s.users.get? userId
  match before with
  | none => throw (.domain customerNotFound)
  | some _ => do
    let _ ← requireMutableNonRootUser userId customerNotFound
    let changes ← commit (.updateCustomer userId)
      [update Directory.usersT (fun s u => u.id == userId && !s.isRoot u.roleIds)
        fun _ u => { u with enabled := active }]
    if changes ≠ [1] then do
      let _ ← requireMutableNonRootUser userId customerNotFound
      throw (.domain ⟨"customer_update_conflict", 409, "Customer changed; retry the update"⟩)
    else .done userId

/-! ## Registration -/

/-- A sign-up: the account is inserted, and a hook then gives it the customer role. -/
def registerUser (userId email : Nat) : UserProg Id := do
  let _ ← commit (.registerUser userId) [insert Directory.usersT .abort fun _ => [⟨userId, email, true, []⟩]]
  let changes ← commit (.assignCustomerRole userId)
    [update Directory.usersT (fun s u => u.id == userId && s.customerRole.isSome)
      fun s u => { u with roleIds := (s.customerRole.map (·.id)).toList }]
  if changes ≠ [1] then do
    let _ ← commit (.dropRegistration userId) [delete Directory.usersT fun _ u => u.id == userId && u.roleIds.isEmpty]
    throw .customerRoleUnavailable
  else .done userId

/-- The account of a Telegram user; without a customer role the row has no roles and is refused. -/
def ensureTelegramUser (userId email : Nat) : UserProg Unit := do
  let existing ← query fun s : Directory => s.users.rows.find? fun u => u.email == email
  match existing with
  | some _ => .done ()
  | none => do
    let _ ← commit (.ensureTelegramUser userId) [fun c s =>
      match s.customerRole with
      | none => .error .constraint
      | some r => insert Directory.usersT .doNothing (fun _ => [⟨userId, email, true, [r.id]⟩]) c s]
    .done ()

/-! ## Roles -/

def roleNotFound : DomainError := ⟨"role_not_found", 404, "Role not found"⟩

def builtInRole (message : String) : DomainError := ⟨"built_in_role", 409, message⟩

def setCustomRoleEnabled (roleId : Id) (enabled : Bool) : UserProg (Id × Bool) := do
  let role ← query fun s => s.roles.get? roleId
  match role with
  | none => throw (.domain roleNotFound)
  | some role =>
    if role.builtIn then throw (.domain (builtInRole "Built-in roles cannot be disabled"))
    else if role.enabled = enabled then .done (roleId, enabled)
    else do
      let _ ← commit (.setRoleEnabled roleId) [update Directory.rolesT (fun _ r => r.id == roleId && !r.builtIn)
          fun _ r => { r with enabled := enabled }]
      .done (roleId, enabled)

/-- `saveSystemRoleFn` of a new role. -/
def createSystemRole (roleId : Id) (name : Nat) : UserProg Id := do
  let _ ← commit (.saveRole roleId) [insert Directory.rolesT .abort fun _ => [⟨roleId, .custom name, false, true⟩]]
  .done roleId

/-- `saveSystemRoleFn` of an existing role. -/
def updateSystemRole (roleId : Id) (name : Nat) : UserProg Id := do
  let role ← query fun s => s.roles.get? roleId
  match role with
  | none => throw (.domain roleNotFound)
  | some role =>
    if role.builtIn then throw (.domain (builtInRole "Built-in roles cannot be edited"))
    else do
      let _ ← commit (.saveRole roleId) [update Directory.rolesT (fun _ r => r.id == roleId && !r.builtIn)
          fun _ r => { r with name := .custom name }]
      .done roleId

def deleteSystemRole (roleId : Id) : UserProg Id := do
  let role ← query fun s => (s.roles.get? roleId).map fun r => (r, s.users.count fun u => u.roleIds.contains r.id)
  match role with
  | none => throw (.domain roleNotFound)
  | some (role, userCount) =>
    if role.builtIn then throw (.domain (builtInRole "Built-in roles cannot be deleted"))
    else if userCount ≠ 0 then
      throw (.domain ⟨"role_in_use", 409, "Remove this role from users first"⟩)
    else do
      let _ ← commit (.deleteRole roleId) [delete Directory.rolesT fun _ r => r.id == roleId]
      .done roleId

inductive UserCall where
  | replaceUserRoles (userId : Id) (roleIds : List Id) (currentUserId : Id)
  | createUser (userId email : Nat) (enabled : Bool)
  | updateUser (userId email : Nat) (enabled : Bool) (currentUserId : Id)
  | setUserEnabled (userId : Id) (enabled : Bool) (currentUserId : Id)
  | deleteUser (userId currentUserId : Id)
  | updateCustomer (userId : Id) (active : Bool)
  | registerUser (userId email : Nat)
  | ensureTelegramUser (userId email : Nat)
  | setRoleEnabled (roleId : Id) (enabled : Bool)
  | createRole (roleId : Id) (name : Nat)
  | updateRole (roleId : Id) (name : Nat)
  | deleteRole (roleId : Id)

def UserCall.code : UserCall → UserProg Unit
  | .replaceUserRoles userId roleIds currentUserId =>
    (replaceUserRolesAtomically userId roleIds currentUserId).void
  | .createUser userId email enabled => (Gmshop.createUser userId email enabled).void
  | .updateUser userId email enabled currentUserId =>
    (Gmshop.updateUser userId email enabled currentUserId).void
  | .setUserEnabled userId enabled currentUserId =>
    (Gmshop.setUserEnabled userId enabled currentUserId).void
  | .deleteUser userId currentUserId => (Gmshop.deleteUser userId currentUserId).void
  | .updateCustomer userId active => (updateCustomerRecord userId active).void
  | .registerUser userId email => (Gmshop.registerUser userId email).void
  | .ensureTelegramUser userId email => Gmshop.ensureTelegramUser userId email
  | .setRoleEnabled roleId enabled => (setCustomRoleEnabled roleId enabled).void
  | .createRole roleId name => (createSystemRole roleId name).void
  | .updateRole roleId name => (updateSystemRole roleId name).void
  | .deleteRole roleId => (deleteSystemRole roleId).void

end Gmshop
