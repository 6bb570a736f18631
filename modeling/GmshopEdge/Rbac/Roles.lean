import GmshopEdge.Rbac.Permissions
import GmshopEdge.Users.Roles

/-!
# Roles with their permissions, and cached access

What an operator may do comes from the roles of their user (`access/server/access-cache.ts`), is kept in a cache
under the user's `updated_at`, and limits what they can put into a role or give to a user
(`access/server/admin.ts`, `access/server/role-enabled.ts`, `users/server/admin.ts`).

The tables are those of the user model with the columns that it leaves out: a role's permissions, a user's
`updated_at` and image. Sessions and audit rows are left out; the clock, new ids and what a lookup finds in the
cache or in flight are arguments.
-/

namespace Gmshop.Rbac

open Sql Stmt Prog

/-! ## Tables -/

structure Role extends Gmshop.Role where
  permissions : List PermissionRow

structure User extends SystemUser where
  updatedAt : Time
  image : Option String := none

instance : KeyedRow Role where
  clash a b := Row.clash a.toRole b.toRole
  key r := r.id
  clash_of_key a b h := KeyedRow.clash_of_key a.toRole b.toRole h

instance : KeyedRow User where
  clash a b := Row.clash a.toSystemUser b.toSystemUser
  key u := u.id
  clash_of_key a b h := KeyedRow.clash_of_key a.toSystemUser b.toSystemUser h

/-- What a user may do: the names of their roles, whether root is among them, and else the merged permissions. -/
structure EffectiveAccess where
  roles : List RoleName
  root : Bool
  permissions : PermissionMap
  deriving DecidableEq

/-- `rbac-access:v2:<user>:<revision>`. -/
structure CachedAccess where
  userId : Id
  revision : Nat
  roles : List RoleName
  root : Bool
  permissions : List PermissionRow

structure AccessLoad where
  userId : Id
  revision : Nat
  access : EffectiveAccess

/-- The tables, the cache, and the loads that others may wait for. `reads` and `removed` note what has been read of
the tables and the ids of deleted users; no statement reads them. -/
structure AccessDb where
  users : Table User
  roles : Table Role
  cache : List CachedAccess
  loads : List AccessLoad
  reads : List AccessLoad
  removed : List Id

namespace AccessDb

def usersT : TableRef AccessDb User := ⟨AccessDb.users, fun s t => { s with users := t }, fun _ _ => rfl⟩

def rolesT : TableRef AccessDb Role := ⟨AccessDb.roles, fun s t => { s with roles := t }, fun _ _ => rfl⟩

def directory (s : AccessDb) : Directory where
  users := s.users.through User.toSystemUser (fun _ _ => rfl) fun _ => rfl
  roles := s.roles.through Role.toRole (fun _ _ => rfl) fun _ => rfl

theorem directory_user (s : AccessDb) (id : Id) : s.directory.users.get? id = (s.users.get? id).map User.toSystemUser :=
  Table.get?_through (f := User.toSystemUser) (fun _ _ => rfl) (fun _ => rfl) (fun _ => rfl) s.users id

theorem directory_role (s : AccessDb) (id : Id) : s.directory.roles.get? id = (s.roles.get? id).map Role.toRole :=
  Table.get?_through (f := Role.toRole) (fun _ _ => rfl) (fun _ => rfl) (fun _ => rfl) s.roles id

end AccessDb

inductive AccessError where
  | denied (status : Nat)
  | domain (e : DomainError)
  | invalidInput
  | error (message : String)

/-- Where a call acts; an operator's write with the access that the operator was loaded with. -/
inductive AccessSite where
  | read (userId : Id)
  | answer (authoritative access : EffectiveAccess)
  | cachePut (userId : Id)
  | createRole (operator : Id) (actor : EffectiveAccess) (roleId : Id) (permissions : List PermissionRow)
  | updateRole (operator : Id) (actor : EffectiveAccess) (roleId : Id) (permissions : List PermissionRow)
  | setRoleEnabled (operator roleId : Id) (enabled : Bool)
  | deleteRole (operator roleId : Id)
  | replaceUserRoles (operator : Id) (actor : EffectiveAccess) (userId : Id) (roleIds : List Id)
      (granted : List (Id × List PermissionRow))
  | createUser (userId : Id)
  | editUser (userId : Id)
  | deleteUser (userId : Id)
  | updateCustomer (userId : Id) (now : Time)
  | backfillImage (userId : Id) (now : Time)
  deriving DecidableEq

abbrev AccessProg := Prog AccessDb AccessSite AccessError

/-! ## `access-cache.ts` -/

def enabledRoles (s : AccessDb) (u : User) : List Role :=
  s.roles.rows.filter fun r => r.enabled && u.roleIds.contains r.id

def accessOf (s : AccessDb) (u : User) : EffectiveAccess :=
  let names := (enabledRoles s u).map (·.name)
  { roles := names, root := names.contains .root
    permissions := if names.contains .root then fun _ => 0
      else mergeRolePermissions ((enabledRoles s u).flatMap (·.permissions)) }

def accessRow (s : AccessDb) (userId : Id) : Option (Bool × AccessLoad) :=
  (s.users.get? userId).map fun u => (u.enabled, ⟨userId, u.updatedAt, accessOf s u⟩)

def readAccess (userId : Id) : AccessProg (Option (Bool × AccessLoad)) :=
  .act (some (.read userId)) (Option (Bool × AccessLoad))
    (fun s => (accessRow s userId, { s with reads := s.reads ++ (accessRow s userId).toList.map (·.2) })) .done

/-- The user's revision and access; who is disabled or has no role is refused. -/
def loadAuthoritativeAccess (userId : Id) : AccessProg (Nat × EffectiveAccess) := do
  let row ← readAccess userId
  match row with
  | none => throw (.denied 403)
  | some (enabled, load) =>
    if !enabled || load.access.roles = [] then throw (.denied 403) else .done (load.revision, load.access)

def snapshotOf (userId revision : Nat) (access : EffectiveAccess) : CachedAccess where
  userId := userId
  revision := revision
  roles := access.roles
  root := access.root
  permissions := permissionRows access.permissions

def hydrateAccess (snapshot : CachedAccess) : EffectiveAccess where
  roles := snapshot.roles
  root := snapshot.root
  permissions := mergeRolePermissions snapshot.permissions

def answer (userId revision : Nat) (authoritative access : EffectiveAccess) : AccessProg EffectiveAccess :=
  .act (some (.answer authoritative access)) EffectiveAccess
    (fun s => (access, { s with loads := s.loads ++ [⟨userId, revision, access⟩] })) .done

/-- `share` and `hit` say which load in flight and which entry of the cache the key finds, if any. -/
def loadEffectiveUserAccess (userId : Id) (share hit : Nat) : AccessProg EffectiveAccess := do
  let (revision, authoritative) ← loadAuthoritativeAccess userId
  let pending ← query fun s => (s.loads.filter fun l => l.userId == userId && l.revision == revision)[share]?
  match pending with
  | some load => answer userId revision authoritative load.access
  | none => do
    let cached ← query fun s => (s.cache.filter fun c => c.userId == userId && c.revision == revision)[hit]?
    match cached with
    | some snapshot => answer userId revision authoritative (hydrateAccess snapshot)
    | none => do
      effect (.cachePut userId) fun s => { s with cache := s.cache ++ [snapshotOf userId revision authoritative] }
      answer userId revision authoritative authoritative

/-! ## The operator -/

structure Operator where
  userId : Id
  share : Nat
  hit : Nat

def requireAdmin (operator : Operator) (permission : PermissionRow) : AccessProg EffectiveAccess := do
  let access ← loadEffectiveUserAccess operator.userId operator.share operator.hit
  if hasGrantedPermission access.root access.permissions permission then .done access else throw (.denied 403)

/-- `getAdminPermissions`. -/
def adminPermissions (access : EffectiveAccess) : List PermissionRow :=
  if access.root then allSystemPermissionGrants else permissionRows access.permissions

def withinActor (actor : EffectiveAccess) (requested : List PermissionRow) : AccessProg Unit :=
  match assertGrantsWithinActor actor.root (adminPermissions actor) requested with
  | .ok _ => .done ()
  | .error e => throw (.domain e)

/-! ## Roles -/

/-- `CASE WHEN updated_at >= ? THEN updated_at + 1 ELSE ? END`. -/
def bumped (updatedAt now : Time) : Time := if now ≤ updatedAt then updatedAt + 1 else now

def bumpRoleMemberRevisions (roleId : Id) (now : Time) : Stmt AccessDb :=
  update AccessDb.usersT (fun _ u => u.roleIds.contains roleId) fun _ u => { u with updatedAt := bumped u.updatedAt now }

def updateRoleStatements (roleId name : Nat) (permissions : List PermissionRow) (now : Time) : List (Stmt AccessDb) :=
  [update AccessDb.rolesT (fun _ r => r.id == roleId && !r.builtIn)
      fun _ r => { r with name := .custom name, permissions := permissions },
    bumpRoleMemberRevisions roleId now]

/-- `saveSystemRoleFn`; without an id, the role is new. -/
def saveSystemRole (operator : Operator) (id : Option Id) (newId name : Nat) (grants : List PermissionRow)
    (now : Time) : AccessProg Id := do
  let actor ← requireAdmin operator (systemPermission .roles (if id.isSome then .update else .create))
  let permissions := normalizeSystemPermissionGrants grants
  withinActor actor permissions
  match id with
  | some id => do
    let role ← query fun s => s.roles.get? id
    match role with
    | none => throw (.domain roleNotFound)
    | some role =>
      if role.builtIn then throw (.domain (builtInRole "Built-in roles cannot be edited"))
      else do
        let _ ← commit (.updateRole operator.userId actor id permissions) (updateRoleStatements id name permissions now)
        .done id
  | none => do
    let _ ← commit (.createRole operator.userId actor newId permissions)
      [insert AccessDb.rolesT .abort fun _ => [⟨⟨newId, .custom name, false, true⟩, permissions⟩]]
    .done newId

def deleteSystemRole (operator : Operator) (id : Id) : AccessProg Id := do
  let _ ← requireAdmin operator (systemPermission .roles .delete)
  let role ← query fun s => (s.roles.get? id).map fun r => (r, s.users.count fun u => u.roleIds.contains r.id)
  match role with
  | none => throw (.domain roleNotFound)
  | some (role, userCount) =>
    if role.builtIn then throw (.domain (builtInRole "Built-in roles cannot be deleted"))
    else if userCount ≠ 0 then throw (.domain ⟨"role_in_use", 409, "Remove this role from users first"⟩)
    else do
      let _ ← commit (.deleteRole operator.userId id) [delete AccessDb.rolesT fun _ r => r.id == id]
      .done id

def setRoleEnabledStatements (id : Id) (enabled : Bool) (now : Time) : List (Stmt AccessDb) :=
  [update AccessDb.rolesT (fun _ r => r.id == id && !r.builtIn) fun _ r => { r with enabled := enabled },
    bumpRoleMemberRevisions id now]

/-- `setSystemRoleEnabledFn` and `setCustomRoleEnabled`. -/
def setSystemRoleEnabled (operator : Operator) (id : Id) (enabled : Bool) (now : Time) : AccessProg (Id × Bool) := do
  let _ ← requireAdmin operator (systemPermission .roles .update)
  let role ← query fun s => s.roles.get? id
  match role with
  | none => throw (.domain roleNotFound)
  | some role =>
    if role.builtIn then throw (.domain (builtInRole "Built-in roles cannot be disabled"))
    else if role.enabled = enabled then .done (id, enabled)
    else do
      let _ ← commit (.setRoleEnabled operator.userId id enabled) (setRoleEnabledStatements id enabled now)
      .done (id, enabled)

/-! ## Role assignment -/

/-- `setUserRolesFn`'s read of the roles and `replaceUserRolesAtomically`'s. -/
def rolesNamed (s : AccessDb) (roleIds : List Id) : List Role :=
  s.roles.rows.filter fun r => r.enabled && roleIds.contains r.id

def replaceUserRolesStatement (userId : Id) (roleIds : List Id) (currentUserId : Id) (now : Time) : Stmt AccessDb :=
  update AccessDb.usersT (fun s u => replaceGuard userId roleIds currentUserId s.directory u.toSystemUser)
    fun _ u => { u with roleIds := roleIds, updatedAt := bumped u.updatedAt now }

/-- `roleIds` are normalized; `granted` is what the caller has read of the roles. -/
def replaceUserRolesAtomically (actor : EffectiveAccess) (granted : List (Id × List PermissionRow)) (userId : Id)
    (roleIds : List Id) (currentUserId : Id) (now : Time) : AccessProg (Id × List Id) :=
  if userId = currentUserId then
    throw (.domain ⟨"cannot_change_own_roles", 409, "You cannot change the roles of your own account"⟩)
  else do
    let roles ← query fun s => rolesNamed s roleIds
    if roleIds ≠ [] ∧ (roles.length ≠ roleIds.length ∨ roles.any (·.name == .guest)) then
      throw (.domain ⟨"user_role_ids_invalid", 400, "Roles must exist, be enabled, and cannot include guest"⟩)
    else do
      let nextIncludesRoot := roleIds ≠ [] && roles.any (·.name == .root)
      let targetBefore ← query fun s => loadRootUserState s.directory userId
      match targetBefore with
      | none => throw (.domain userNotFound)
      | some target => do
        let actorIsRoot ← query fun s => s.directory.isEnabledRootUser currentUserId
        if (target.isRoot || nextIncludesRoot) && !actorIsRoot then throw (.domain rootRoleRequired)
        else do
          let changes ← commit (.replaceUserRoles currentUserId actor userId roleIds granted)
            [replaceUserRolesStatement userId roleIds currentUserId now]
          if changes ≠ [1] then do
            let target ← query fun s => loadRootUserState s.directory userId
            match target with
            | none => throw (.domain userNotFound)
            | some target => do
              let actorIsRoot ← query fun s => s.directory.isEnabledRootUser currentUserId
              if (target.isRoot || nextIncludesRoot) && !actorIsRoot then throw (.domain rootRoleRequired)
              else throw (.domain ⟨"last_root_required", 409, "The last enabled root user cannot lose the root role"⟩)
          else do
            let actual ← query fun s => s.users.get? userId
            match actual with
            | none => throw (.domain userNotFound)
            | some u => .done (userId, u.roleIds)

/-- `setUserRolesFn`. -/
def setUserRoles (operator : Operator) (userId : Id) (roleIds : List Id) (now : Time) : AccessProg (Id × List Id) :=
  match normalizeRoleIds roleIds with
  | none => throw .invalidInput
  | some roleIds => do
    let actor ← requireAdmin operator (systemPermission .users .update)
    let roles ← query fun s => (rolesNamed s roleIds).filter fun r => r.name != .customer && r.name != .guest
    if roles.length ≠ roleIds.length then
      throw (.domain ⟨"role_unavailable", 409, "Unknown or disabled role"⟩)
    else do
      withinActor actor (roles.flatMap (·.permissions))
      replaceUserRolesAtomically actor (roles.map fun r => (r.id, r.permissions)) userId roleIds operator.userId now

/-! ## User edits -/

def requireMutableNonRootUser (userId : Id) (notFound : DomainError := userNotFound) : AccessProg Bool := do
  let state ← query fun s => loadRootUserState s.directory userId
  match state with
  | none => throw (.domain notFound)
  | some state => if state.isRoot then throw (.domain rootUserImmutable) else .done state.enabled

def createUser (userId email : Nat) (enabled : Bool) (now : Time) : AccessProg Id := do
  let changes ← commit (.createUser userId)
    [insert AccessDb.usersT .doNothing fun _ => [{ id := userId, email := email, enabled := enabled, roleIds := [], updatedAt := now }]]
  if changes ≠ [1] then throw (.domain emailInUse) else .done userId

def editUser (userId : Id) (p : AccessDb → User → Bool) (f : User → User) (now : Time) : AccessProg (List Nat) :=
  commit (.editUser userId)
    [update AccessDb.usersT (fun s u => u.id == userId && (p s u && !s.directory.isRoot u.roleIds))
      fun _ u => { f u with updatedAt := bumped u.updatedAt now }]

def disableUserAtomically (userId currentUserId : Id) (now : Time) : AccessProg Unit :=
  if userId = currentUserId then
    throw (.domain ⟨"cannot_disable_self", 409, "Cannot disable your own account"⟩)
  else do
    let _ ← requireMutableNonRootUser userId
    let changes ← editUser userId (fun _ u => u.enabled) (fun u => { u with enabled := false }) now
    if changes = [1] then .done ()
    else do
      let enabled ← requireMutableNonRootUser userId
      if enabled then throw (.error "Enabled user was not disabled") else .done ()

def updateUser (userId email : Nat) (enabled : Bool) (currentUserId : Id) (now : Time) : AccessProg Id := do
  (if enabled then (requireMutableNonRootUser userId).void else disableUserAtomically userId currentUserId now)
  let changes ← editUser userId (fun s _ => !s.users.exist fun other => other.email == email && other.id != userId)
    (fun u => { u with email := email, enabled := if enabled then true else u.enabled }) now
  if changes ≠ [1] then do
    let existing ← query fun s => s.users.get? userId
    match existing with
    | none => throw (.domain userNotFound)
    | some _ => do
      let _ ← requireMutableNonRootUser userId
      throw (.domain emailInUse)
  else .done userId

def setUserEnabled (userId : Id) (enabled : Bool) (currentUserId : Id) (now : Time) : AccessProg Id :=
  if enabled then do
    let _ ← requireMutableNonRootUser userId
    let changes ← editUser userId (fun _ _ => true) (fun u => { u with enabled := true }) now
    if changes ≠ [1] then do
      let _ ← requireMutableNonRootUser userId
      .done userId
    else .done userId
  else do
    disableUserAtomically userId currentUserId now
    .done userId

def noteRemoved (p : AccessDb → User → Bool) : Stmt AccessDb := fun c s =>
  .ok (c, { s with removed := (s.users.rows.filter (p s)).map (·.id) ++ s.removed })

def deleteUserWhere (userId : Id) (s : AccessDb) (u : User) : Bool := u.id == userId && !s.directory.isRoot u.roleIds

def deleteUser (userId currentUserId : Id) : AccessProg Id :=
  if userId = currentUserId then
    throw (.domain ⟨"cannot_delete_self", 409, "Cannot delete your own account"⟩)
  else do
    let _ ← requireMutableNonRootUser userId
    let changes ← commit (.deleteUser userId)
      [noteRemoved (deleteUserWhere userId), delete AccessDb.usersT (deleteUserWhere userId)]
    if changes.getLast? ≠ some 1 then do
      let existing ← query fun s => s.users.get? userId
      match existing with
      | none => .done userId
      | some _ => do
        let _ ← requireMutableNonRootUser userId
        .done userId
    else .done userId

/-- `updateCustomerRecord` sets the revision to the clock. -/
def updateCustomerRecord (userId : Id) (active : Bool) (now : Time) : AccessProg Id := do
  let before ← query fun s => s.users.get? userId
  match before with
  | none => throw (.domain customerNotFound)
  | some _ => do
    let _ ← requireMutableNonRootUser userId customerNotFound
    let changes ← commit (.updateCustomer userId now)
      [update AccessDb.usersT (fun s u => u.id == userId && !s.directory.isRoot u.roleIds)
        fun _ u => { u with enabled := active, updatedAt := now }]
    if changes ≠ [1] then do
      let _ ← requireMutableNonRootUser userId customerNotFound
      throw (.domain ⟨"customer_update_conflict", 409, "Customer changed; retry the update"⟩)
    else .done userId

/-- A sign-in with an image that the user lacks: `backfillTelegramMiniAppImage`, `backfillTelegramWidgetImage` and
the Telegram provider. -/
def backfillImage (userId : Id) (image : String) (now : Time) : AccessProg Unit := do
  let _ ← commit (.backfillImage userId now) [update AccessDb.usersT (fun _ u => u.id == userId && u.image.isNone)
      fun _ u => { u with image := some image, updatedAt := now }]
  .done ()

/-! ## Calls -/

inductive AccessCall where
  | load (operator : Operator)
  | saveRole (operator : Operator) (id : Option Id) (newId name : Nat) (grants : List PermissionRow) (now : Time)
  | setRoleEnabled (operator : Operator) (id : Id) (enabled : Bool) (now : Time)
  | deleteRole (operator : Operator) (id : Id)
  | setUserRoles (operator : Operator) (userId : Id) (roleIds : List Id) (now : Time)
  | createUser (userId email : Nat) (enabled : Bool) (now : Time)
  | updateUser (userId email : Nat) (enabled : Bool) (currentUserId : Id) (now : Time)
  | setUserEnabled (userId : Id) (enabled : Bool) (currentUserId : Id) (now : Time)
  | deleteUser (userId currentUserId : Id)
  | updateCustomer (userId : Id) (active : Bool) (now : Time)
  | signIn (userId : Id) (image : String) (now : Time)

def AccessCall.code : AccessCall → AccessProg Unit
  | .load operator => (loadEffectiveUserAccess operator.userId operator.share operator.hit).void
  | .saveRole operator id newId name grants now => (saveSystemRole operator id newId name grants now).void
  | .setRoleEnabled operator id enabled now => (setSystemRoleEnabled operator id enabled now).void
  | .deleteRole operator id => (deleteSystemRole operator id).void
  | .setUserRoles operator userId roleIds now => (Rbac.setUserRoles operator userId roleIds now).void
  | .createUser userId email enabled now => (Rbac.createUser userId email enabled now).void
  | .updateUser userId email enabled currentUserId now =>
    (Rbac.updateUser userId email enabled currentUserId now).void
  | .setUserEnabled userId enabled currentUserId now =>
    (Rbac.setUserEnabled userId enabled currentUserId now).void
  | .deleteUser userId currentUserId => (Rbac.deleteUser userId currentUserId).void
  | .updateCustomer userId active now => (updateCustomerRecord userId active now).void
  | .signIn userId image now => backfillImage userId image now

end Gmshop.Rbac
