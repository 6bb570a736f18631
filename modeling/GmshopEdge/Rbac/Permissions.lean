import GmshopEdge.Db.Schema

/-!
# Permissions

Masks of actions for each module of the administration (`access/rbac-bitmask.ts`, `access/system-rbac.ts`), and the
rule that an operator grants only what they hold (`access/permissions.ts`).

A permission map is the function that `get(module) ?? 0` reads off it.
-/

namespace Gmshop

open List

/-! ## Modules and actions -/

inductive SystemRbacModule where
  | dashboard
  | products
  | inventory
  | orders
  | customers
  | coupons
  | payments
  | suppliers
  | delivery
  | automation
  | notifications
  | users
  | roles
  | operations
  | audit
  | settings
  deriving DecidableEq

def systemRbacModuleIds : List SystemRbacModule :=
  [.dashboard, .products, .inventory, .orders, .customers, .coupons, .payments, .suppliers, .delivery, .automation,
    .notifications, .users, .roles, .operations, .audit, .settings]

theorem mem_systemRbacModuleIds (m : SystemRbacModule) : m ∈ systemRbacModuleIds := by
  cases m <;> decide

theorem systemRbacModuleIds_nodup : systemRbacModuleIds.Nodup := by decide

inductive RbacAction where
  | read
  | create
  | update
  | delete
  | test
  deriving DecidableEq

def rbacActions : List RbacAction := [.read, .create, .update, .delete, .test]

theorem mem_rbacActions (a : RbacAction) : a ∈ rbacActions := by
  cases a <;> decide

def rbacActionBits : RbacAction → Nat
  | .read => 1
  | .create => 2
  | .update => 4
  | .delete => 8
  | .test => 16

def rbacRegisteredActionMask : Nat := rbacActions.foldl (fun mask action => mask ||| rbacActionBits action) 0

def hasRbacAction (mask : Nat) (action : RbacAction) : Bool := mask &&& rbacActionBits action != 0

def normalizePermissionMask (mask : Nat) : Nat := if mask < 2 ^ 53 then mask &&& rbacRegisteredActionMask else 0

structure PermissionRow where
  moduleId : SystemRbacModule
  permissionMask : Nat
  deriving DecidableEq

abbrev PermissionMap := SystemRbacModule → Nat

instance : DecidableEq PermissionMap := fun f g =>
  decidable_of_iff (∀ m ∈ systemRbacModuleIds, f m = g m)
    ⟨fun h => funext fun m => h m (mem_systemRbacModuleIds m), fun h m _ => congrFun h m⟩

/-! ## `permissions.ts` -/

def mergeRolePermissions (rows : List PermissionRow) : PermissionMap := fun m =>
  rows.foldl (fun mask row => if row.moduleId = m then mask ||| normalizePermissionMask row.permissionMask else mask) 0

def hasGrantedPermission (root : Bool) (permissions : PermissionMap) (requirement : PermissionRow) : Bool :=
  root || permissions requirement.moduleId &&& requirement.permissionMask == requirement.permissionMask

def permissionEscalation : DomainError :=
  ⟨"permission_escalation", 403, "You cannot grant permissions you do not have"⟩

/-- An operator may only hand out (or write into a role) actions they hold themselves; root is the only
unrestricted grantor. -/
def assertGrantsWithinActor (root : Bool) (permissions requested : List PermissionRow) : Except DomainError Unit :=
  if root then .ok ()
  else if systemRbacModuleIds.all fun m =>
      mergeRolePermissions requested m &&& mergeRolePermissions permissions m == mergeRolePermissions requested m then
    .ok ()
  else .error permissionEscalation

/-! ## `system-rbac.ts` -/

def allSystemPermissionGrants : List PermissionRow := systemRbacModuleIds.map fun m => ⟨m, rbacRegisteredActionMask⟩

def systemPermission (m : SystemRbacModule) (action : RbacAction) : PermissionRow := ⟨m, rbacActionBits action⟩

def permissionRows (permissions : PermissionMap) : List PermissionRow :=
  systemRbacModuleIds.filterMap fun m => if permissions m = 0 then none else some ⟨m, permissions m⟩

def normalizeSystemPermissionGrants (grants : List PermissionRow) : List PermissionRow :=
  permissionRows (mergeRolePermissions grants)

/-! ## What a mask grants -/

theorem hasRbacAction_or (x y : Nat) (action : RbacAction) :
    hasRbacAction (x ||| y) action = (hasRbacAction x action || hasRbacAction y action) := by
  unfold hasRbacAction
  rw [Nat.and_or_distrib_right, Bool.eq_iff_iff]
  simp only [bne_iff_ne, ne_eq, Bool.or_eq_true, Nat.or_eq_zero_iff, not_and_or]

variable {action : RbacAction}

theorem hasRbacAction_within {x y : Nat} (h : x &&& y = x) (hx : hasRbacAction x action = true) :
    hasRbacAction y action = true := by
  unfold hasRbacAction at hx ⊢
  rw [bne_iff_ne] at hx ⊢
  intro hy
  rw [← h, Nat.and_assoc, hy, Nat.and_zero] at hx
  exact hx rfl

theorem hasRbacAction_zero (action : RbacAction) : hasRbacAction 0 action = false := by
  unfold hasRbacAction
  rw [Nat.zero_and]
  rfl

theorem hasRbacAction_merge {rows : List PermissionRow} {m : SystemRbacModule} :
    hasRbacAction (mergeRolePermissions rows m) action = true ↔
      ∃ row ∈ rows, row.moduleId = m ∧ hasRbacAction (normalizePermissionMask row.permissionMask) action = true := by
  have hfold : ∀ mask, hasRbacAction (rows.foldl (fun mask row =>
      if row.moduleId = m then mask ||| normalizePermissionMask row.permissionMask else mask) mask) action = true ↔
        hasRbacAction mask action = true ∨ ∃ row ∈ rows, row.moduleId = m ∧
          hasRbacAction (normalizePermissionMask row.permissionMask) action = true := by
    induction rows with
    | nil => simp
    | cons row rows ih =>
      intro mask
      rw [foldl_cons, ih]
      by_cases hm : row.moduleId = m
      · rw [if_pos hm, hasRbacAction_or, Bool.or_eq_true, or_assoc]
        simp [hm]
      · simp [hm]
  unfold mergeRolePermissions
  rw [hfold, hasRbacAction_zero]
  simp

theorem assertGrantsWithinActor_ok {root : Bool} {permissions requested : List PermissionRow}
    (h : assertGrantsWithinActor root permissions requested = .ok ()) :
    root = true ∨ ∀ m action, hasRbacAction (mergeRolePermissions requested m) action = true →
      hasRbacAction (mergeRolePermissions permissions m) action = true := by
  unfold assertGrantsWithinActor at h
  split at h
  · next hroot => exact Or.inl hroot
  · split at h
    · next hall =>
      refine Or.inr fun m action hm => hasRbacAction_within ?_ hm
      exact beq_iff_eq.mp (all_eq_true.mp hall m (mem_systemRbacModuleIds m))
    · cases h

/-! ## Normal masks -/

def NormalMap (permissions : PermissionMap) : Prop := ∀ m, normalizePermissionMask (permissions m) = permissions m

theorem normalizePermissionMask_le (mask : Nat) : normalizePermissionMask mask ≤ 31 := by
  unfold normalizePermissionMask
  split
  · exact Nat.and_le_right
  · exact Nat.zero_le _

theorem normalizePermissionMask_of_le {mask : Nat} (h : mask ≤ 31) : normalizePermissionMask mask = mask := by
  unfold normalizePermissionMask
  rw [if_pos (by omega)]
  exact Nat.and_two_pow_sub_one_of_lt_two_pow (n := 5) (by omega)

theorem mergeRolePermissions_normal (rows : List PermissionRow) : NormalMap (mergeRolePermissions rows) := by
  intro m
  refine normalizePermissionMask_of_le ?_
  have hfold : ∀ mask ≤ 31, rows.foldl (fun mask row =>
      if row.moduleId = m then mask ||| normalizePermissionMask row.permissionMask else mask) mask ≤ 31 := by
    induction rows with
    | nil => exact fun mask h => h
    | cons row rows ih =>
      intro mask h
      rw [foldl_cons]
      refine ih _ ?_
      split
      · have hor : mask ||| normalizePermissionMask row.permissionMask < 2 ^ 5 :=
          Nat.or_lt_two_pow (by omega) (by have := normalizePermissionMask_le row.permissionMask; omega)
        omega
      · exact h
  exact hfold 0 (Nat.zero_le _)

theorem mergeRolePermissions_rows {permissions : PermissionMap} (h : NormalMap permissions) :
    mergeRolePermissions (permissionRows permissions) = permissions := by
  funext m
  -- each module has one row, or none when its mask is empty
  have hfold : ∀ ids : List SystemRbacModule, ids.Nodup → ∀ mask,
      (ids.filterMap fun m => if permissions m = 0 then none else some (⟨m, permissions m⟩ : PermissionRow)).foldl
        (fun mask row => if row.moduleId = m then mask ||| normalizePermissionMask row.permissionMask else mask) mask =
        if m ∈ ids then mask ||| permissions m else mask := by
    intro ids hids
    induction ids with
    | nil => exact fun _ => rfl
    | cons x ids ih =>
      intro mask
      rw [nodup_cons] at hids
      by_cases hx : x = m
      · subst hx
        rw [if_pos mem_cons_self, filterMap_cons]
        by_cases hzero : permissions x = 0
        · rw [if_pos hzero, hzero, Nat.or_zero]
          exact (ih hids.2 mask).trans (if_neg hids.1)
        · rw [if_neg hzero, foldl_cons, if_pos rfl, h x]
          exact (ih hids.2 _).trans (if_neg hids.1)
      · have hmem : m ∈ x :: ids ↔ m ∈ ids := by
          rw [mem_cons, or_iff_right (Ne.symm hx)]
        rw [filterMap_cons]
        by_cases hzero : permissions x = 0
        · rw [if_pos hzero]
          exact (ih hids.2 mask).trans (if_congr hmem.symm rfl rfl)
        · rw [if_neg hzero, foldl_cons, if_neg hx]
          exact (ih hids.2 mask).trans (if_congr hmem.symm rfl rfl)
  refine (hfold systemRbacModuleIds systemRbacModuleIds_nodup 0).trans ?_
  rw [if_pos (mem_systemRbacModuleIds m), Nat.zero_or]

end Gmshop
