import GmshopEdge.Rbac.Roles

/-!
# Nobody grants what they do not hold

The ceiling of a request is the access it was loaded with, and the roles it hands out are those it has read;
enabling a role has no ceiling. `ceilingHeld` is the condition that these are still so when the batch runs: the
operator holds what they were loaded with, named roles have the contents that were read, and an enabled role has
only what the operator holds. Then no step adds to what a user may do an action that its operator does not hold.
-/

namespace Gmshop.Rbac

open List Sql Stmt Prog Table Each World

/-! ## What a user may do -/

def Role.grants (r : Role) (m : SystemRbacModule) (action : RbacAction) : Bool :=
  r.name == .root || hasRbacAction (mergeRolePermissions r.permissions m) action

def EffectiveAccess.grants (access : EffectiveAccess) (m : SystemRbacModule) (action : RbacAction) : Bool :=
  access.root || hasRbacAction (access.permissions m) action

def holds (s : AccessDb) (userId : Id) (m : SystemRbacModule) (action : RbacAction) : Bool :=
  (s.users.get? userId).any fun u => (enabledRoles s u).any fun r => r.grants m action

variable {s t : AccessDb} {userId : Id} {m : SystemRbacModule} {action : RbacAction} {actor : EffectiveAccess}
  {permissions requested : List PermissionRow} {x : AccessSite} {p : AccessDb → User → Bool}
  {f : AccessDb → User → User} {id : Nat} {now : Time} {ns : List Nat} {roleIds : List Id}
  {granted : List (Id × List PermissionRow)} {sts : List (Stmt AccessDb)} {α β : Type} {k : α → AccessProg β}

theorem holds_iff : holds s userId m action = true ↔ ∃ u, s.users.get? userId = some u ∧
      ∃ r ∈ s.roles.rows, r.enabled = true ∧ r.id ∈ u.roleIds ∧ r.grants m action = true := by
  unfold holds enabledRoles
  rw [Option.any_eq_true]
  simp only [any_filter, any_eq_true, Bool.and_eq_true, contains_iff_mem, and_assoc]

/-! ## The property -/

def AccessSite.operator : AccessSite → Option Id
  | .createRole operator _ _ _ => some operator
  | .updateRole operator _ _ _ => some operator
  | .setRoleEnabled operator _ _ => some operator
  | .deleteRole operator _ => some operator
  | .replaceUserRoles operator _ _ _ _ => some operator
  | _ => none

/-- Whoever may do more than before may do what the operator of the step may. -/
def WithinOperator (x : AccessSite) (s t : AccessDb) : Prop :=
  ∀ userId m action, holds t userId m action = true →
    holds s userId m action = true ∨ ∃ operator, x.operator = some operator ∧ holds s operator m action = true

/-! ## The conditions -/

/-- A new id is new: no user lists the role, and the user was never there. -/
def freshIds (x : AccessSite) (s : AccessDb) : Prop :=
  match x with
  | .createRole _ _ roleId _ => ∀ u ∈ s.users.rows, roleId ∉ u.roleIds
  | .createUser userId => userId ∉ s.removed
  | _ => True

def stillHeld (actor : EffectiveAccess) (operator : Id) (s : AccessDb) : Prop :=
  ∀ m ∈ systemRbacModuleIds, ∀ action ∈ rbacActions, actor.grants m action = true → holds s operator m action = true

/-- The ceiling of the request is one of the operator now, also for a role that is enabled. -/
def ceilingHeld (x : AccessSite) (s : AccessDb) : Prop :=
  freshIds x s ∧ match x with
    | .updateRole operator actor _ _ => stillHeld actor operator s
    | .setRoleEnabled operator roleId enabled => enabled = true → ∀ r ∈ s.roles.rows, r.id = roleId →
        ∀ m ∈ systemRbacModuleIds, ∀ action ∈ rbacActions, r.grants m action = true → holds s operator m action = true
    | .replaceUserRoles operator actor _ roleIds granted => stillHeld actor operator s ∧
        ∀ r ∈ s.roles.rows, r.enabled = true → r.id ∈ roleIds → r.name = .root ∨ (r.id, r.permissions) ∈ granted
    | _ => True

instance (x : AccessSite) (s : AccessDb) : Decidable (freshIds x s) := by
  cases x <;> unfold freshIds <;> infer_instance

instance (actor : EffectiveAccess) (operator : Id) (s : AccessDb) : Decidable (stillHeld actor operator s) := by
  unfold stillHeld
  infer_instance

instance (x : AccessSite) (s : AccessDb) : Decidable (ceilingHeld x s) := by
  cases x <;> unfold ceilingHeld <;> infer_instance

/-! ## The ceiling -/

theorem hasRbacAction_normalize {mask : Nat} (h : hasRbacAction (normalizePermissionMask mask) action = true) :
    hasRbacAction mask action = true := by
  unfold normalizePermissionMask at h
  split at h
  · refine hasRbacAction_within (x := mask &&& rbacRegisteredActionMask) ?_ h
    rw [Nat.and_comm mask, Nat.and_assoc, Nat.and_self]
  · rw [hasRbacAction_zero] at h
    cases h

theorem adminPermissions_grants (h : hasRbacAction (mergeRolePermissions (adminPermissions actor) m) action = true) :
    actor.grants m action = true := by
  unfold EffectiveAccess.grants
  rw [Bool.or_eq_true]
  by_cases hroot : actor.root = true
  · exact Or.inl hroot
  · unfold adminPermissions at h
    rw [if_neg hroot] at h
    obtain ⟨row, hrow, rfl, hmask⟩ := hasRbacAction_merge.mp h
    obtain ⟨m, -, hm⟩ := mem_filterMap.mp hrow
    split at hm
    · cases hm
    · obtain rfl := Option.some.inj hm
      exact Or.inr (hasRbacAction_normalize hmask)

theorem assert_grants (h : assertGrantsWithinActor actor.root (adminPermissions actor) requested = .ok ())
    (hm : hasRbacAction (mergeRolePermissions requested m) action = true) : actor.grants m action = true := by
  rcases assertGrantsWithinActor_ok h with hroot | hheld
  · unfold EffectiveAccess.grants
    rw [hroot, Bool.true_or]
  · exact adminPermissions_grants (hheld m action hm)

theorem stillHeld.holds {operator : Id} (h : stillHeld actor operator s) (hg : actor.grants m action = true) :
    Rbac.holds s operator m action = true :=
  h m (mem_systemRbacModuleIds m) action (mem_rbacActions action) hg

/-! ## What a statement adds -/

def NoNewGrant (s t : AccessDb) : Prop :=
  ∀ userId m action, holds t userId m action = true → holds s userId m action = true

theorem NoNewGrant.refl (s : AccessDb) : NoNewGrant s s := fun _ _ _ h => h

theorem NoNewGrant.within (h : NoNewGrant s t) : WithinOperator x s t :=
  fun userId m action hold => Or.inl (h userId m action hold)

theorem users_noNewGrant (hroles : t.roles = s.roles)
    (husers : ∀ id u, t.users.get? id = some u → u.roleIds = [] ∨ ∃ u', s.users.get? id = some u' ∧ u'.roleIds = u.roleIds)
    : NoNewGrant s t := by
  intro userId m action h
  obtain ⟨u, hu, r, hr, henabled, hmem, hgrants⟩ := holds_iff.mp h
  rcases husers userId u hu with hnone | ⟨u', hu', hsame⟩
  · rw [hnone] at hmem
    exact absurd hmem not_mem_nil
  · rw [hroles] at hr
    rw [← hsame] at hmem
    exact holds_iff.mpr ⟨u', hu', r, hr, henabled, hmem, hgrants⟩

theorem updateUsers_noNewGrant (hf : ∀ s u, (f s u).id = u.id ∧ (f s u).roleIds = u.roleIds) :
    Within NoNewGrant (update AccessDb.usersT p f) := by
  intro c s n t h
  obtain ⟨-, table, hrows, rfl⟩ := update_ok h
  refine users_noNewGrant rfl fun id u hu => Or.inr ?_
  have hget : table.get? id = (s.users.get? id).map fun u => if p s u then f s u else u := by
    refine get?_map hrows (fun u => ?_) id
    split
    · exact (hf s u).1
    · rfl
  rw [show table.get? id = some u from hu] at hget
  obtain ⟨u', hu', rfl⟩ := Option.map_eq_some_iff.mp hget.symm
  refine ⟨u', hu', ?_⟩
  split
  · exact (hf s u').2.symm
  · rfl

theorem bump_noNewGrant (roleId : Id) (now : Time) : Within NoNewGrant (bumpRoleMemberRevisions roleId now) :=
  updateUsers_noNewGrant fun _ _ => ⟨rfl, rfl⟩

theorem updateRole_grants {p : Role → Bool} {f : Role → Role} {c n : Nat}
    (h : update AccessDb.rolesT (fun _ r => r.id == id && p r) (fun _ r => f r) c s = .ok (n, t))
    (hold : holds t userId m action = true) : holds s userId m action = true ∨
      ∃ r ∈ s.roles.rows, r.id = id ∧ p r = true ∧ (f r).enabled = true ∧ (f r).grants m action = true := by
  obtain ⟨-, table, hrows, rfl⟩ := update_ok h
  obtain ⟨u, hu, r, hr, henabled, hmem, hgrants⟩ := holds_iff.mp hold
  have hr : r ∈ table.rows := hr
  rw [hrows] at hr
  obtain ⟨r', hr', rfl⟩ := mem_map.mp hr
  by_cases hp : (r'.id == id && p r') = true
  · rw [if_pos hp] at henabled hgrants
    rw [Bool.and_eq_true, beq_iff_eq] at hp
    exact Or.inr ⟨r', hr', hp.1, hp.2, henabled, hgrants⟩
  · rw [if_neg hp] at henabled hmem hgrants
    exact Or.inl (holds_iff.mpr ⟨u, hu, r', hr', henabled, hmem, hgrants⟩)

/-! ## Batches -/

theorem updateRole_within {operator : Id} {name : Nat} (hheld : stillHeld actor operator s)
    (hassert : assertGrantsWithinActor actor.root (adminPermissions actor) permissions = .ok ())
    (h : batch (updateRoleStatements id name permissions now) 0 s = .ok (ns, t)) :
    WithinOperator (.updateRole operator actor id permissions) s t := by
  intro userId m action hold
  obtain ⟨n, s1, ms, hrole, hbump, -⟩ := batch_cons_ok h
  obtain ⟨k, hbump, -⟩ := batch_single_ok hbump
  rcases updateRole_grants hrole (bump_noNewGrant _ _ _ _ _ _ hbump _ _ _ hold) with
    hold | ⟨r, -, -, -, -, hgrants⟩
  · exact Or.inl hold
  · -- the rewritten role is no root, and has what the request asked for
    have hmask : hasRbacAction (mergeRolePermissions permissions m) action = true := hgrants
    exact Or.inr ⟨operator, rfl, hheld.holds (assert_grants hassert hmask)⟩

theorem setRoleEnabled_within {operator id : Id} {enabled : Bool}
    (hc : ceilingHeld (.setRoleEnabled operator id enabled) s)
    (h : batch (setRoleEnabledStatements id enabled now) 0 s = .ok (ns, t)) :
    WithinOperator (.setRoleEnabled operator id enabled) s t := by
  intro userId m action hold
  obtain ⟨n, s1, ms, hrole, hbump, -⟩ := batch_cons_ok h
  obtain ⟨k, hbump, -⟩ := batch_single_ok hbump
  rcases updateRole_grants hrole (bump_noNewGrant _ _ _ _ _ _ hbump _ _ _ hold) with
    hold | ⟨r, hr, hid, -, henabled, hgrants⟩
  · exact Or.inl hold
  · exact Or.inr ⟨operator, rfl, hc.2 henabled r hr hid m (mem_systemRbacModuleIds m) action (mem_rbacActions action) hgrants⟩

theorem createRole_within {operator : Id} {id : Id} {role : Role} (hid : role.id = id)
    (hfresh : ∀ u ∈ s.users.rows, id ∉ u.roleIds)
    (h : batch [insert AccessDb.rolesT .abort fun _ => [role]] 0 s = .ok (ns, t)) :
    WithinOperator (.createRole operator actor id permissions) s t := by
  intro userId m action hold
  obtain ⟨n, hins, -⟩ := batch_single_ok h
  obtain ⟨-, table, hrows, rfl⟩ := insert_abort_ok hins
  obtain ⟨u, hu, r, hr, henabled, hmem, hgrants⟩ := holds_iff.mp hold
  have hr : r ∈ table.rows := hr
  rw [hrows] at hr
  rcases mem_append.mp hr with hr | hr
  · exact Or.inl (holds_iff.mpr ⟨u, hu, r, hr, henabled, hmem, hgrants⟩)
  · rw [mem_singleton.mp hr, hid] at hmem
    exact absurd hmem (hfresh u (get?_mem hu))

theorem deleteRole_noNewGrant (id : Id) : Within NoNewGrant (delete AccessDb.rolesT fun _ r => r.id == id) := by
  intro c s n t h userId m action hold
  obtain ⟨-, table, hrows, rfl⟩ := delete_ok h
  obtain ⟨u, hu, r, hr, hrest⟩ := holds_iff.mp hold
  have hr : r ∈ table.rows := hr
  rw [hrows] at hr
  exact holds_iff.mpr ⟨u, hu, r, (mem_filter.mp hr).1, hrest⟩

theorem isRoot_iff : s.directory.isRoot roleIds = true ↔
    ∃ r ∈ s.roles.rows, r.id ∈ roleIds ∧ r.name = .root ∧ r.enabled = true := by
  unfold Directory.isRoot
  rw [any_eq_true]
  constructor
  · rintro ⟨id, hid, hany⟩
    rw [s.directory_role, Option.any_map, Option.any_eq_true] at hany
    obtain ⟨r, hr, hroot⟩ := hany
    rw [Bool.and_eq_true, beq_iff_eq] at hroot
    exact ⟨r, get?_mem hr, (show r.id = id from get?_key hr) ▸ hid, hroot⟩
  · rintro ⟨r, hr, hid, hname, henabled⟩
    refine ⟨r.id, hid, ?_⟩
    rw [s.directory_role, show s.roles.get? r.id = some r from mem_get? hr, Option.map_some, Option.any_some,
      hname, henabled]
    rfl

theorem rootOperator_holds {operator : Id} (h : s.directory.isEnabledRootUser operator = true)
    (m : SystemRbacModule) (action : RbacAction) : holds s operator m action = true := by
  unfold Directory.isEnabledRootUser at h
  rw [s.directory_user, Option.any_map, Option.any_eq_true] at h
  obtain ⟨u, hu, hroot⟩ := h
  rw [Bool.and_eq_true] at hroot
  obtain ⟨r, hr, hid, hname, henabled⟩ := (isRoot_iff).mp hroot.2
  refine holds_iff.mpr ⟨u, hu, r, hr, henabled, hid, ?_⟩
  unfold Role.grants
  rw [hname]
  rfl

theorem replaceGuard_root {operator : Id} {u : User}
    (h : replaceGuard userId roleIds operator s.directory u.toSystemUser = true) {r : Role}
    (hr : r ∈ s.roles.rows) (henabled : r.enabled = true) (hmem : r.id ∈ roleIds) (hroot : r.name = .root) :
    s.directory.isEnabledRootUser operator = true := by
  have hnext : s.directory.isRoot roleIds = true := (isRoot_iff).mpr ⟨r, hr, hmem, hroot, henabled⟩
  unfold replaceGuard at h
  simp only [Bool.and_eq_true, hnext, Bool.not_true, Bool.and_false, Bool.false_or] at h
  exact h.1.2

theorem replaceUserRoles_within {operator : Id}
    (hc : ceilingHeld (.replaceUserRoles operator actor userId roleIds granted) s)
    (hassert : assertGrantsWithinActor actor.root (adminPermissions actor) (granted.flatMap (·.2)) = .ok ())
    (h : batch [replaceUserRolesStatement userId roleIds operator now] 0 s = .ok (ns, t)) :
    WithinOperator (.replaceUserRoles operator actor userId roleIds granted) s t := by
  intro other m action hold
  obtain ⟨n, hupdate, -⟩ := batch_single_ok h
  obtain ⟨-, table, hrows, rfl⟩ := update_ok hupdate
  obtain ⟨u, hu, r, hr, henabled, hmem, hgrants⟩ := holds_iff.mp hold
  have hget : table.get? other = (s.users.get? other).map fun u =>
      if replaceGuard userId roleIds operator s.directory u.toSystemUser then
        { u with roleIds := roleIds, updatedAt := bumped u.updatedAt now } else u := by
    refine get?_map hrows (fun u => ?_) other
    split <;> rfl
  rw [show table.get? other = some u from hu] at hget
  obtain ⟨u', hu', rfl⟩ := Option.map_eq_some_iff.mp hget.symm
  by_cases hguard : replaceGuard userId roleIds operator s.directory u'.toSystemUser = true
  · rw [if_pos hguard] at hmem
    refine Or.inr ⟨operator, rfl, ?_⟩
    unfold Role.grants at hgrants
    rw [Bool.or_eq_true, beq_iff_eq] at hgrants
    by_cases hroot : r.name = .root
    · exact rootOperator_holds (replaceGuard_root hguard hr henabled hmem hroot) m action
    · have hread := (hc.2.2 r hr henabled hmem).resolve_left hroot
      have hmask := hasRbacAction_merge.mp (hgrants.resolve_left hroot)
      refine hc.2.1.holds (assert_grants hassert (hasRbacAction_merge.mpr ?_))
      obtain ⟨row, hrow, hm⟩ := hmask
      exact ⟨row, mem_flatMap.mpr ⟨_, hread, hrow⟩, hm⟩
  · rw [if_neg hguard] at hmem
    exact Or.inl (holds_iff.mpr ⟨u', hu', r, hr, henabled, hmem, hgrants⟩)

/-! ## The calls -/

def ceilingSpec : Spec AccessDb AccessSite Empty :=
  .ofRel (fun _ => True) ceilingHeld (fun _ _ => True) (fun _ _ => True) (fun _ => trivial) (fun _ => trivial)
    fun _ _ _ _ _ => trivial

theorem admits_any (s t : AccessDb) : ceilingSpec.Admits ∅ ∅ s t := Spec.admits_ofRel trivial trivial fun _ => trivial

abbrev Bounded {α : Type} (p : AccessProg α) (s : AccessDb) : Prop :=
  Each ceilingSpec (fun x t u _ => WithinOperator x t u) p s

theorem bounded_commit (h : ∀ t ns u, ceilingHeld x t → batch sts 0 t = .ok (ns, u) → WithinOperator x t u) :
    Bounded (commit x sts : AccessProg (List Nat)) s :=
  commit fun t _ _ hc ns u hb => ⟨admits_any t u, h t ns u hc hb⟩

theorem Bounded.then {p : AccessProg α} (hp : Bounded p s) (hk : ∀ a t, Bounded (k a) t) : Bounded (p >>= k) s :=
  bind hp fun a t _ => hk a t

theorem Bounded.read {g : AccessDb → α} (hk : ∀ t, Bounded (k (g t)) t) : Bounded (query g >>= k) s :=
  query fun t _ _ => hk t

theorem bounded_idle (hsts : ∀ st ∈ sts, Within NoNewGrant st) :
    Bounded (commit x sts : AccessProg (List Nat)) s := by
  refine bounded_commit fun t ns u _ hb => NoNewGrant.within ?_
  exact batch_within NoNewGrant.refl (fun a b c hab hbc id m action h => hab id m action (hbc id m action h)) hsts hb

theorem bounded_update (hf : ∀ s u, (f s u).id = u.id ∧ (f s u).roleIds = u.roleIds) :
    Bounded (commit x [update AccessDb.usersT p f] : AccessProg (List Nat)) s :=
  bounded_idle fun st hst => by
    rw [mem_singleton.mp hst]
    exact updateUsers_noNewGrant hf

theorem answer_bounded (userId revision : Nat) (authoritative access : EffectiveAccess) (s : AccessDb) :
    Bounded (answer userId revision authoritative access) s := by
  intro t _ _ _
  exact ⟨admits_any _ _, Or.inr ⟨_, rfl, fun _ _ _ h => Or.inl h⟩, trivial⟩

theorem loadEffectiveUserAccess_bounded (userId : Id) (share hit : Nat) (s : AccessDb) :
    Bounded (loadEffectiveUserAccess userId share hit) s := by
  have hread : Bounded (readAccess userId) s := by
    intro t _ _ _
    exact ⟨admits_any _ _, Or.inr ⟨_, rfl, fun _ _ _ h => Or.inl h⟩, trivial⟩
  have hload : Bounded (loadAuthoritativeAccess userId) s := by
    refine hread.then fun row t => ?_
    split
    · exact throw _
    · split
      · exact throw _
      · exact done _
  refine hload.then fun loaded t => Bounded.read fun t => ?_
  split
  · exact answer_bounded _ _ _ _ t
  · refine Bounded.read fun t => ?_
    split
    · exact answer_bounded _ _ _ _ t
    · refine Bounded.then (effect fun t _ _ _ => ⟨admits_any _ _, ?_⟩) fun _ t => answer_bounded _ _ _ _ t
      exact fun _ _ _ h => Or.inl h

theorem requireAdmin_bounded (operator : Operator) (permission : PermissionRow) (s : AccessDb) :
    Bounded (requireAdmin operator permission) s := by
  refine (loadEffectiveUserAccess_bounded _ _ _ s).then fun access t => ?_
  split
  · exact done _
  · exact throw _

theorem withinActor_bounded {k : Unit → AccessProg α}
    (hk : assertGrantsWithinActor actor.root (adminPermissions actor) requested = .ok () → Bounded (k ()) s) :
    Bounded (withinActor actor requested >>= k) s := by
  unfold withinActor
  split
  · next h => exact hk h
  · exact throw _

theorem saveSystemRole_bounded (operator : Operator) (id : Option Id) (newId name : Nat)
    (grants : List PermissionRow) (now : Time) (s : AccessDb) :
    Bounded (saveSystemRole operator id newId name grants now) s := by
  refine (requireAdmin_bounded _ _ s).then fun actor t => withinActor_bounded fun hassert => ?_
  cases id with
  | some id =>
    refine Bounded.read fun t => ?_
    split
    · exact throw _
    · split
      · exact throw _
      · refine (bounded_commit fun t ns u hc hb => ?_).then fun _ t => done _
        exact updateRole_within hc.2 hassert hb
  | none =>
    refine (bounded_commit fun t ns u hc hb => ?_).then fun _ t => done _
    exact createRole_within rfl hc.1 hb

theorem deleteSystemRole_bounded (operator : Operator) (id : Id) (s : AccessDb) :
    Bounded (deleteSystemRole operator id) s := by
  refine (requireAdmin_bounded _ _ s).then fun _ t => Bounded.read fun t => ?_
  split
  · exact throw _
  · split
    · exact throw _
    · split
      · exact throw _
      · refine Bounded.then (bounded_idle fun st hst => ?_) fun _ t => done _
        rw [mem_singleton.mp hst]
        exact deleteRole_noNewGrant id

theorem setSystemRoleEnabled_bounded (operator : Operator) (id : Id) (enabled : Bool) (now : Time) (s : AccessDb) :
    Bounded (setSystemRoleEnabled operator id enabled now) s := by
  refine (requireAdmin_bounded _ _ s).then fun _ t => Bounded.read fun t => ?_
  split
  · exact throw _
  · split
    · exact throw _
    · split
      · exact done _
      · exact (bounded_commit fun t ns u hc hb => setRoleEnabled_within hc hb).then fun _ t => done _

theorem replaceUserRolesAtomically_bounded
    (hassert : assertGrantsWithinActor actor.root (adminPermissions actor) (granted.flatMap (·.2)) = .ok ())
    (userId : Id) (roleIds : List Id) (currentUserId : Id) (now : Time) (s : AccessDb) :
    Bounded (replaceUserRolesAtomically actor granted userId roleIds currentUserId now) s := by
  unfold replaceUserRolesAtomically
  split
  · exact throw _
  refine Bounded.read fun t => ?_
  split
  · exact throw _
  refine Bounded.read fun t => ?_
  split
  · exact throw _
  refine Bounded.read fun t => ?_
  split
  · exact throw _
  refine (bounded_commit fun t ns u hc hb => replaceUserRoles_within hc hassert hb).then fun changes t => ?_
  split
  · refine Bounded.read fun t => ?_
    split
    · exact throw _
    · refine Bounded.read fun t => ?_
      split
      · exact throw _
      · exact throw _
  · refine Bounded.read fun t => ?_
    split
    · exact throw _
    · exact done _

theorem setUserRoles_bounded (operator : Operator) (userId : Id) (roleIds : List Id) (now : Time) (s : AccessDb) :
    Bounded (setUserRoles operator userId roleIds now) s := by
  unfold setUserRoles
  split
  · exact throw _
  refine (requireAdmin_bounded _ _ s).then fun actor t => Bounded.read fun t => ?_
  split
  · exact throw _
  refine withinActor_bounded fun hassert => replaceUserRolesAtomically_bounded ?_ _ _ _ _ t
  rw [flatMap_map]
  exact hassert

theorem requireMutable_bounded (userId : Id) (notFound : DomainError) (s : AccessDb) :
    Bounded (requireMutableNonRootUser userId notFound) s := by
  refine Bounded.read fun t => ?_
  split
  · exact throw _
  · split
    · exact throw _
    · exact done _

theorem editUser_bounded {f : User → User} (now : Time) (s : AccessDb)
    (hf : ∀ u, (f u).id = u.id ∧ (f u).roleIds = u.roleIds) : Bounded (editUser userId p f now) s :=
  bounded_update fun _ u => hf u

theorem createUser_bounded (userId email : Nat) (enabled : Bool) (now : Time) (s : AccessDb) :
    Bounded (createUser userId email enabled now) s := by
  refine (bounded_idle fun st hst => ?_).then fun changes t => ?_
  · rw [mem_singleton.mp hst]
    intro c s n t h
    obtain ⟨-, table, hrows, rfl⟩ := insert_ok h
    refine users_noNewGrant rfl fun id u hu => ?_
    have hid : u.id = id := get?_key hu
    have hmem : u ∈ table.rows := get?_mem hu
    rw [hrows] at hmem
    rcases mem_append.mp hmem with hmem | hmem
    · exact Or.inr ⟨u, hid ▸ mem_get? hmem, rfl⟩
    · left
      rw [mem_singleton.mp ((admitted_sublist _ _ _).mem hmem)]
  · split
    · exact throw _
    · exact done _

theorem disableUserAtomically_bounded (userId currentUserId : Id) (now : Time) (s : AccessDb) :
    Bounded (disableUserAtomically userId currentUserId now) s := by
  unfold disableUserAtomically
  split
  · exact throw _
  refine (requireMutable_bounded _ _ s).then fun _ t => Bounded.then (editUser_bounded now t ?_) fun changes t => ?_
  · exact fun _ => ⟨rfl, rfl⟩
  split
  · exact done _
  · refine (requireMutable_bounded _ _ t).then fun enabled t => ?_
    split
    · exact throw _
    · exact done _

theorem updateUser_bounded (userId email : Nat) (enabled : Bool) (currentUserId : Id) (now : Time) (s : AccessDb) :
    Bounded (updateUser userId email enabled currentUserId now) s := by
  have hfirst : Bounded (if enabled then (requireMutableNonRootUser userId).void
      else disableUserAtomically userId currentUserId now) s := by
    split
    · exact (requireMutable_bounded _ _ s).then fun _ _ => done _
    · exact disableUserAtomically_bounded _ _ _ s
  refine hfirst.then fun _ t => Bounded.then (editUser_bounded now t ?_) fun changes t => ?_
  · exact fun _ => ⟨rfl, rfl⟩
  split
  · refine Bounded.read fun t => ?_
    split
    · exact throw _
    · exact (requireMutable_bounded _ _ t).then fun _ t => throw _
  · exact done _

theorem setUserEnabled_bounded (userId : Id) (enabled : Bool) (currentUserId : Id) (now : Time) (s : AccessDb) :
    Bounded (setUserEnabled userId enabled currentUserId now) s := by
  unfold setUserEnabled
  split
  · refine (requireMutable_bounded _ _ s).then fun _ t => Bounded.then (editUser_bounded now t ?_) fun changes t => ?_
    · exact fun _ => ⟨rfl, rfl⟩
    split
    · exact (requireMutable_bounded _ _ t).then fun _ t => done _
    · exact done _
  · exact (disableUserAtomically_bounded _ _ _ s).then fun _ t => done _

theorem deleteUser_bounded (userId currentUserId : Id) (s : AccessDb) : Bounded (deleteUser userId currentUserId) s := by
  unfold deleteUser
  split
  · exact throw _
  refine (requireMutable_bounded _ _ s).then fun _ t => (bounded_idle fun st hst => ?_).then fun changes t => ?_
  · refine each_two ?_ ?_ _ hst
    · intro c s n t h
      obtain ⟨-, rfl⟩ := Prod.mk.inj (Except.ok.inj h)
      exact fun _ _ _ hold => hold
    · intro c s n t h
      obtain ⟨-, table, hrows, rfl⟩ := delete_ok h
      refine users_noNewGrant rfl fun id u hu => Or.inr ⟨u, ?_, rfl⟩
      have hmem : u ∈ table.rows := get?_mem hu
      rw [hrows] at hmem
      rw [← show u.id = id from get?_key hu]
      exact mem_get? (mem_filter.mp hmem).1
  · split
    · refine Bounded.read fun t => ?_
      split
      · exact done _
      · exact (requireMutable_bounded _ _ t).then fun _ t => done _
    · exact done _

theorem updateCustomerRecord_bounded (userId : Id) (active : Bool) (now : Time) (s : AccessDb) :
    Bounded (updateCustomerRecord userId active now) s := by
  refine Bounded.read fun t => ?_
  split
  · exact throw _
  refine (requireMutable_bounded _ _ t).then fun _ t => Bounded.then (bounded_update ?_) fun changes t => ?_
  · exact fun _ _ => ⟨rfl, rfl⟩
  split
  · exact (requireMutable_bounded _ _ t).then fun _ t => throw _
  · exact done _

theorem accessCall_bounded (call : AccessCall) (s : AccessDb) : Bounded call.code s := by
  cases call with
  | load operator => exact (loadEffectiveUserAccess_bounded _ _ _ s).then fun _ _ => done _
  | saveRole operator id newId name grants now =>
    exact (saveSystemRole_bounded _ _ _ _ _ _ s).then fun _ _ => done _
  | setRoleEnabled operator id enabled now =>
    exact (setSystemRoleEnabled_bounded _ _ _ _ s).then fun _ _ => done _
  | deleteRole operator id => exact (deleteSystemRole_bounded _ _ s).then fun _ _ => done _
  | setUserRoles operator userId roleIds now => exact (setUserRoles_bounded _ _ _ _ s).then fun _ _ => done _
  | createUser userId email enabled now => exact (createUser_bounded _ _ _ _ s).then fun _ _ => done _
  | updateUser userId email enabled currentUserId now =>
    exact (updateUser_bounded _ _ _ _ _ s).then fun _ _ => done _
  | setUserEnabled userId enabled currentUserId now =>
    exact (setUserEnabled_bounded _ _ _ _ s).then fun _ _ => done _
  | deleteUser userId currentUserId => exact (deleteUser_bounded _ _ s).then fun _ _ => done _
  | updateCustomer userId active now => exact (updateCustomerRecord_bounded _ _ _ s).then fun _ _ => done _
  | signIn userId image now =>
    refine Bounded.then (bounded_update ?_) fun _ _ => done _
    exact fun _ _ => ⟨rfl, rfl⟩

/-! ## Runs -/

/-- Where the ceiling of each request still holds when it writes, no step of a run lets a user do what its operator
may not. -/
theorem steps_within_operator {s : AccessDb} {w w' : World AccessDb AccessSite AccessError Unit}
    (h : Runs AccessCall.code ceilingHeld ⟨s, []⟩ w) (hstep : Step AccessCall.code ceilingHeld w w') {userId : Id}
    {m : SystemRbacModule} {action : RbacAction} (hnew : holds w'.db userId m action = true)
    (hold : holds w.db userId m action = false) :
    ∃ i x operator, w.site i = some x ∧ x.operator = some operator ∧ holds w.db operator m action = true := by
  rcases Runs.stepped (S := ceilingSpec) (fun call t _ => accessCall_bounded call t) trivial h hstep with
    hsame | ⟨i, x, k, hsite, -, -, hwithin⟩
  · rw [hsame, hold] at hnew
    cases hnew
  · rcases hwithin userId m action hnew with hheld | ⟨operator, hoperator, hheld⟩
    · rw [hold] at hheld
      cases hheld
    · exact ⟨i, x, operator, hsite, hoperator, hheld⟩

/-- User 1 keeps roles and may work on orders; user 2 has an empty role, and one for products that is disabled. -/
def staff : AccessDb where
  users := .of [{ id := 1, email := 1, enabled := true, roleIds := [10], updatedAt := 100 },
    { id := 2, email := 2, enabled := true, roleIds := [20, 30], updatedAt := 100 }]
  roles := .of [⟨⟨10, .custom 1, false, true⟩, [⟨.roles, 31⟩, ⟨.orders, 31⟩]⟩, ⟨⟨20, .custom 2, false, true⟩, []⟩,
    ⟨⟨30, .custom 3, false, false⟩, [⟨.products, 4⟩]⟩]
  cache := []
  loads := []
  reads := []
  removed := []

/-- User 1 puts reading orders into the role of user 2. -/
theorem steps_within_operator_save : ∃ w w' : World AccessDb AccessSite AccessError Unit,
    Runs AccessCall.code ceilingHeld ⟨staff, []⟩ w ∧ Step AccessCall.code ceilingHeld w w' ∧
      holds w'.db 2 .orders .read = true ∧ holds w.db 2 .orders .read = false ∧
      ∃ i x operator, w.site i = some x ∧ x.operator = some operator ∧ holds w.db operator .orders .read = true := by
  obtain ⟨w, hw⟩ : ∃ w, w = exec AccessCall.code ceilingHeld ⟨staff, []⟩
      (oneByOne [.saveRole ⟨1, 0, 0⟩ (some 20) 0 2 [⟨.orders, 1⟩] 200] 6) := ⟨_, rfl⟩
  have hruns : Runs AccessCall.code ceilingHeld ⟨staff, []⟩ w := by
    rw [hw]
    exact exec_runs _ _ _ _
  have hold : holds w.db 2 .orders .read = false := by
    rw [hw]
    decide
  have hnew : holds (w.move AccessCall.code ceilingHeld (.run 0)).db 2 .orders .read = true := by
    rw [hw]
    decide
  have hstep : Step AccessCall.code ceilingHeld w (w.move AccessCall.code ceilingHeld (.run 0)) := by
    refine move_step _ _ fun hsame => ?_
    rw [hsame, hold] at hnew
    cases hnew
  exact ⟨w, _, hruns, hstep, hnew, hold, steps_within_operator hruns hstep hnew hold⟩

/-- User 1 enables the role for products, and user 2 may change products, which user 1 may not. -/
theorem enabling_escalates : ∃ w : World AccessDb AccessSite AccessError Unit,
    Runs AccessCall.code freshIds ⟨staff, []⟩ w ∧ w.site 0 = some (.setRoleEnabled 1 30 true) ∧
      holds (w.move AccessCall.code freshIds (.run 0)).db 2 .products .update = true ∧
      holds w.db 2 .products .update = false ∧ holds w.db 1 .products .update = false := by
  obtain ⟨w, hw⟩ : ∃ w, w = exec AccessCall.code freshIds ⟨staff, []⟩
      (oneByOne [.setRoleEnabled ⟨1, 0, 0⟩ 30 true 200] 6) := ⟨_, rfl⟩
  refine ⟨w, ?_, ?_, ?_, ?_, ?_⟩
  · rw [hw]
    exact exec_runs _ _ _ _
  all_goals
    rw [hw]
    decide

end Gmshop.Rbac
