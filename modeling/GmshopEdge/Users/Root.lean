import GmshopEdge.Users.Roles

/-!
# There is a root, and only root makes root

The root role is built in, so that no call touches it, and each statement that could take it from a user
or disable one repeats the check in its WHERE. All but the change of roles leave the rows of root users
alone (`RootIdle`); that one asks for an acting root and, where root is lost, for another one.

The hook of a sign-up overwrites whatever roles the account has by then (`assignsToNonRoot`).
-/

namespace Gmshop

open List Sql Stmt Prog Table Bool Each World

/-! ## The property -/

def Directory.holdsRoot (s : Directory) (userId : Id) : Bool :=
  (s.users.get? userId).any fun u => s.isRoot u.roleIds

structure RootKept (s : Directory) : Prop where
  builtIn : ∀ r ∈ s.roles.rows, r.name = .root → r.builtIn = true
  root : ∃ userId, s.isEnabledRootUser userId = true

def RootByRoot (x : UserSite) (s t : Directory) : Prop :=
  (∀ userId, t.holdsRoot userId = s.holdsRoot userId) ∨
    ∃ target actor, x = .replaceUserRoles target actor ∧ s.isEnabledRootUser actor = true

/-- The hook of a sign-up gives the customer role to an account that is not root by then. -/
def assignsToNonRoot (x : UserSite) (s : Directory) : Prop :=
  match x with
  | .assignCustomerRole userId => s.holdsRoot userId = false
  | _ => True

instance (x : UserSite) (s : Directory) : Decidable (assignsToNonRoot x s) := by
  cases x <;> unfold assignsToNonRoot <;> infer_instance

/-! ## The root role stays -/

def RootRoleSame (s t : Directory) : Prop :=
  ∀ r : Role, r.name = .root → (r ∈ t.roles.rows ↔ r ∈ s.roles.rows)

variable {s t : Directory} {userId : Id} {p : Directory → SystemUser → Bool} {c n : Nat}

theorem RootRoleSame.of_eq (h : t.roles = s.roles) : RootRoleSame s t :=
  fun _ _ => by rw [h]

theorem RootRoleSame.trans (s t u : Directory) (h : RootRoleSame s t) (h' : RootRoleSame t u) : RootRoleSame s u :=
  fun r hr => (h' r hr).trans (h r hr)

theorem isRoot_iff {roleIds : List Id} :
    s.isRoot roleIds = true ↔ ∃ r ∈ s.roles.rows, r.name = .root ∧ r.enabled = true ∧ r.id ∈ roleIds := by
  unfold Directory.isRoot
  rw [any_eq_true]
  constructor
  · rintro ⟨id, hid, h⟩
    rw [Option.any_eq_true] at h
    obtain ⟨r, hr, hroot⟩ := h
    rw [and_eq_true, beq_iff_eq] at hroot
    exact ⟨r, get?_mem hr, hroot.1, hroot.2, by rw [show r.id = id from get?_key hr]; exact hid⟩
  · rintro ⟨r, hr, hname, henabled, hid⟩
    refine ⟨r.id, hid, ?_⟩
    rw [show s.roles.get? r.id = some r from mem_get? hr]
    simp [hname, henabled]

theorem RootRoleSame.isRoot (h : RootRoleSame s t) (roleIds : List Id) : t.isRoot roleIds = s.isRoot roleIds := by
  rw [Bool.eq_iff_iff, isRoot_iff, isRoot_iff]
  constructor
  · rintro ⟨r, hr, hname, hrest⟩
    exact ⟨r, (h r hname).mp hr, hname, hrest⟩
  · rintro ⟨r, hr, hname, hrest⟩
    exact ⟨r, (h r hname).mpr hr, hname, hrest⟩

theorem RootRoleSame.builtIn (h : RootRoleSame s t) (hs : RootKept s) :
    ∀ r ∈ t.roles.rows, r.name = .root → r.builtIn = true :=
  fun r hr hname => hs.builtIn r ((h r hname).mp hr) hname

/-! ## Steps that leave root alone -/

structure RootIdle (s t : Directory) : Prop where
  roles : RootRoleSame s t
  users : ∀ u : SystemUser, s.isRoot u.roleIds = true → (u ∈ t.users.rows ↔ u ∈ s.users.rows)

theorem RootIdle.root_user (h : RootIdle s t) {id : Id} {u : SystemUser} (hu : s.isRoot u.roleIds = true) :
    t.users.get? id = some u ↔ s.users.get? id = some u := by
  rw [get?_eq_some_iff, get?_eq_some_iff, h.users u hu]

theorem RootIdle.holdsRoot (h : RootIdle s t) (userId : Id) : t.holdsRoot userId = s.holdsRoot userId := by
  unfold Directory.holdsRoot
  rw [Bool.eq_iff_iff, Option.any_eq_true, Option.any_eq_true]
  simp only [h.roles.isRoot]
  constructor
  · rintro ⟨u, hu, hroot⟩
    exact ⟨u, (h.root_user hroot).mp hu, hroot⟩
  · rintro ⟨u, hu, hroot⟩
    exact ⟨u, (h.root_user hroot).mpr hu, hroot⟩

theorem isEnabledRootUser_iff : s.isEnabledRootUser userId = true ↔
    ∃ u, s.users.get? userId = some u ∧ u.enabled = true ∧ s.isRoot u.roleIds = true := by
  unfold Directory.isEnabledRootUser
  rw [Option.any_eq_true]
  simp only [and_eq_true]

theorem RootIdle.kept (h : RootIdle s t) (hs : RootKept s) : RootKept t := by
  refine ⟨h.roles.builtIn hs, ?_⟩
  obtain ⟨userId, hroot⟩ := hs.root
  obtain ⟨u, hu, henabled, hrole⟩ := (isEnabledRootUser_iff).mp hroot
  refine ⟨userId, (isEnabledRootUser_iff).mpr ⟨u, (h.root_user hrole).mpr hu, henabled, ?_⟩⟩
  rw [h.roles.isRoot]
  exact hrole

theorem updateUsers_rootIdle {f : Directory → SystemUser → SystemUser}
    (hp : ∀ u, p s u = true → s.isRoot u.roleIds = false ∧ s.isRoot (f s u).roleIds = false)
    (h : update Directory.usersT p f c s = .ok (n, t)) : RootIdle s t := by
  obtain ⟨-, users, hrows, rfl⟩ := update_ok h
  refine ⟨.of_eq rfl, fun u hu => ?_⟩
  show u ∈ users.rows ↔ u ∈ s.users.rows
  rw [hrows, mem_map]
  constructor
  · rintro ⟨x, hx, rfl⟩
    by_cases hpx : p s x = true
    · rw [if_pos hpx, (hp x hpx).2] at hu
      cases hu
    · rw [if_neg hpx]
      exact hx
  · intro hmem
    refine ⟨u, hmem, if_neg fun hpu => ?_⟩
    rw [(hp u hpu).1] at hu
    cases hu

theorem insertUsers_rootIdle {policy : OnConflict} {g : Directory → List SystemUser}
    (hg : ∀ u ∈ g s, s.isRoot u.roleIds = false) (h : insert Directory.usersT policy g c s = .ok (n, t)) :
    RootIdle s t := by
  obtain ⟨-, users, hrows, rfl⟩ := insert_ok h
  refine ⟨.of_eq rfl, fun u hu => ?_⟩
  show u ∈ users.rows ↔ u ∈ s.users.rows
  rw [hrows, mem_append]
  refine ⟨fun hmem => hmem.resolve_right fun hnew => ?_, Or.inl⟩
  rw [hg u ((admitted_sublist _ _ _).subset hnew)] at hu
  cases hu

theorem deleteUsers_rootIdle (hp : ∀ u, p s u = true → s.isRoot u.roleIds = false)
    (h : delete Directory.usersT p c s = .ok (n, t)) : RootIdle s t := by
  obtain ⟨-, users, hrows, rfl⟩ := delete_ok h
  refine ⟨.of_eq rfl, fun u hu => ?_⟩
  show u ∈ users.rows ↔ u ∈ s.users.rows
  rw [hrows, mem_filter]
  refine ⟨And.left, fun hmem => ⟨hmem, ?_⟩⟩
  cases hpu : p s u with
  | false => rfl
  | true =>
    rw [hp u hpu] at hu
    cases hu

theorem roles_rootIdle (husers : t.users = s.users)
    (hroles : ∀ r : Role, r.name = .root → (r ∈ t.roles.rows ↔ r ∈ s.roles.rows)) : RootIdle s t :=
  ⟨hroles, fun _ _ => by rw [husers]⟩

theorem updateRoles_rootIdle {p : Directory → Role → Bool} {f : Directory → Role → Role} (hs : RootKept s)
    (hp : ∀ r, p s r = true → r.builtIn = false) (hf : ∀ r, r.name ≠ .root → (f s r).name ≠ .root)
    (h : update Directory.rolesT p f c s = .ok (n, t)) : RootIdle s t := by
  obtain ⟨-, roles, hrows, rfl⟩ := update_ok h
  refine roles_rootIdle rfl fun r hname => ?_
  have hroot : ∀ x ∈ s.roles.rows, p s x = true → x.name ≠ .root := by
    intro x hx hpx hroot
    have hbuiltIn := hs.builtIn x hx hroot
    rw [hp x hpx] at hbuiltIn
    cases hbuiltIn
  show r ∈ roles.rows ↔ r ∈ s.roles.rows
  rw [hrows, mem_map]
  constructor
  · rintro ⟨x, hx, rfl⟩
    by_cases hpx : p s x = true
    · rw [if_pos hpx] at hname
      exact absurd hname (hf x (hroot x hx hpx))
    · rw [if_neg hpx]
      exact hx
  · intro hmem
    exact ⟨r, hmem, if_neg fun hpr => hroot r hmem hpr hname⟩

/-! ## The change of roles -/

theorem replaceUserRoles_kept {currentUserId : Id} {next : List Id} (hs : RootKept s)
    (h : update Directory.usersT (replaceGuard userId next currentUserId)
      (fun _ u => { u with roleIds := next }) c s = .ok (n, t)) :
    RootRoleSame s t ∧ RootKept t ∧ RootByRoot (.replaceUserRoles userId currentUserId) s t := by
  by_cases hactor : s.isEnabledRootUser currentUserId = true
  · obtain ⟨-, users, hrows, rfl⟩ := update_ok h
    have hsame : RootRoleSame s (Directory.usersT.set s users) := .of_eq rfl
    refine ⟨hsame, ⟨hsame.builtIn hs, ?_⟩, Or.inr ⟨_, _, rfl, hactor⟩⟩
    have hget : ∀ id, users.get? id = (s.users.get? id).map fun u =>
        if replaceGuard userId next currentUserId s u then { u with roleIds := next } else u := by
      refine fun id => get?_map hrows (fun u => ?_) id
      split <;> rfl
    obtain ⟨rootId, hroot⟩ := hs.root
    obtain ⟨u, hu, henabled, hrole⟩ := (isEnabledRootUser_iff).mp hroot
    by_cases hhit : replaceGuard userId next currentUserId s u = true ∧ s.isRoot next = false
    · -- the root user loses the role, and the guard has seen another
      obtain ⟨hguard, hnext⟩ := hhit
      simp only [replaceGuard, henabled, hrole, hnext, Bool.not_true, Bool.false_and, Bool.false_or,
        Bool.and_eq_true, beq_iff_eq] at hguard
      obtain ⟨other, hother, hmeets⟩ := exist_iff.mp hguard.2
      simp only [Bool.and_eq_true, bne_iff_ne] at hmeets
      have hmiss : ¬ replaceGuard userId next currentUserId s other = true := by
        intro hg
        simp only [replaceGuard, Bool.and_eq_true, beq_iff_eq] at hg
        exact hmeets.1.1 (hg.1.1.trans hguard.1.1.symm)
      refine ⟨other.id, isEnabledRootUser_iff.mpr ⟨other, ?_, hmeets.1.2, ?_⟩⟩
      · show users.get? other.id = some other
        rw [hget, show s.users.get? other.id = some other from mem_get? hother, Option.map_some, if_neg hmiss]
      · rw [hsame.isRoot]
        exact hmeets.2
    · refine ⟨rootId, isEnabledRootUser_iff.mpr ⟨_, (hget rootId).trans (by rw [hu]; rfl), ?_, ?_⟩⟩
      · dsimp only
        split <;> exact henabled
      · rw [hsame.isRoot]
        dsimp only
        split
        · next hguard =>
          by_contra hnext
          exact hhit ⟨hguard, Bool.eq_false_of_not_eq_true hnext⟩
        · exact hrole
  · -- without an acting root neither the old roles nor the new ones have root
    have hidle : RootIdle s t := by
      refine updateUsers_rootIdle (fun u hu => ?_) h
      simp only [replaceGuard, Bool.eq_false_of_not_eq_true hactor, Bool.or_false, Bool.and_eq_true,
        Bool.not_eq_true'] at hu
      exact ⟨hu.1.2.1, hu.1.2.2⟩
    exact ⟨hidle.roles, hidle.kept hs, Or.inl hidle.holdsRoot⟩

/-! ## The calls -/

def userSpec : Spec Directory UserSite Empty :=
  .ofRel RootKept assignsToNonRoot (fun _ _ => True) RootRoleSame (fun _ => trivial)
    (fun _ => .of_eq rfl) RootRoleSame.trans

abbrev KeepsRoot {α : Type} (p : UserProg α) (s : Directory) : Prop :=
  Each userSpec (fun x t u _ => RootByRoot x t u) p s

theorem admits_kept (ht : RootKept t) (h : RootRoleSame s t) : userSpec.Admits ∅ ∅ s t :=
  Spec.admits_ofRel ht trivial fun _ => h

theorem idle_commit {x : UserSite} {st : Stmt Directory}
    (h : ∀ t n u, userSpec.rely ∅ s t → RootKept t → assignsToNonRoot x t → st 0 t = .ok (n, u) →
      RootIdle t u) : KeepsRoot (commit x [st]) s := by
  refine commit fun t hr ht hc ns u hb => ?_
  obtain ⟨n, hst, -⟩ := batch_single_ok hb
  have hidle := h t n u hr ht hc hst
  exact ⟨admits_kept (hidle.kept ht) hidle.roles, Or.inl hidle.holdsRoot⟩

theorem requireMutable_reads (userId : Id) (notFound : DomainError) :
    Reads (fun _ => True) (requireMutableNonRootUser userId notFound) := by
  refine (reads_query _).bind fun state _ => ?_
  cases state with
  | none => trivial
  | some state =>
    dsimp only
    split <;> trivial

theorem keepsRoot_reads {α β : Type} {p : UserProg α} {k : α → UserProg β} {Q : α → Prop} (hp : Reads Q p)
    (hk : ∀ a t, KeepsRoot (k a) t) : KeepsRoot (p >>= k) s :=
  reads hp fun a t _ _ => hk a t

theorem requestedRoles_reads (roleIds : List Id) : Reads (fun _ => True) (requestedRoles roleIds) := by
  unfold requestedRoles
  split
  · trivial
  · refine (reads_query _).bind fun roles _ => ?_
    split <;> trivial

theorem replaceUserRoles_keepsRoot (userId : Id) (roleIds : List Id) (currentUserId : Id) (s : Directory) :
    KeepsRoot (replaceUserRolesAtomically userId roleIds currentUserId) s := by
  unfold replaceUserRolesAtomically
  split
  · exact throw _
  split
  · exact throw _
  refine keepsRoot_reads (requestedRoles_reads _) fun nextIncludesRoot t => keepsRoot_reads (reads_query _) fun before t => ?_
  cases before with
  | none => exact throw _
  | some target =>
    refine keepsRoot_reads (reads_query _) fun actorIsRoot t => ?_
    split
    · exact throw _
    refine bind (commit fun t _ ht _ ns u hb => ?_) fun ns t _ => ?_
    · obtain ⟨n, hst, -⟩ := batch_single_ok hb
      obtain ⟨hsame, hkept, hroot⟩ := replaceUserRoles_kept ht hst
      exact ⟨admits_kept hkept hsame, hroot⟩
    · split
      · refine keepsRoot_reads (reads_query _) fun target t => ?_
        cases target with
        | none => exact throw _
        | some target =>
          refine keepsRoot_reads (reads_query _) fun actorIsRoot t => ?_
          split <;> exact throw _
      · refine keepsRoot_reads (reads_query _) fun actual t => ?_
        cases actual <;> trivial

theorem disableUser_keepsRoot (userId currentUserId : Id) (s : Directory) :
    KeepsRoot (disableUserAtomically userId currentUserId) s := by
  unfold disableUserAtomically
  split
  · exact throw _
  refine keepsRoot_reads (requireMutable_reads _ _) fun _ t => bind (idle_commit fun t n u _ _ _ h => ?_)
    fun ns t _ => ?_
  · refine updateUsers_rootIdle (fun u hu => ?_) h
    simp only [and_eq_true, not_eq_true'] at hu
    exact ⟨hu.2, hu.2⟩
  · split
    · trivial
    · refine keepsRoot_reads (requireMutable_reads _ _) fun enabled t => ?_
      split <;> trivial

theorem updateUserFields_keepsRoot (userId email : Nat) (enabled : Bool) (t : Directory) : KeepsRoot (do
    let changes ← commit (.updateUser userId) [update Directory.usersT (fun s u => u.id == userId &&
          !s.users.exist (fun other => other.email == email && other.id != userId) &&
          !s.isRoot u.roleIds)
        fun _ u => { u with email := email, enabled := if enabled then true else u.enabled }]
    if changes ≠ [1] then do
      let existing ← query fun s => s.users.get? userId
      match existing with
      | none => throw (.domain userNotFound)
      | some _ => do
        let _ ← requireMutableNonRootUser userId
        throw (.domain emailInUse)
    else .done userId) t := by
  refine bind (idle_commit fun t n u _ _ _ h => ?_) fun ns t _ => ?_
  · refine updateUsers_rootIdle (fun u hu => ?_) h
    simp only [and_eq_true, not_eq_true'] at hu
    exact ⟨hu.2, hu.2⟩
  · split
    · refine keepsRoot_reads (reads_query _) fun existing t => ?_
      cases existing with
      | none => exact throw _
      | some _ => exact keepsRoot_reads (requireMutable_reads _ _) fun _ _ => throw _
    · trivial

theorem updateUser_keepsRoot (userId email : Nat) (enabled : Bool) (currentUserId : Id) (s : Directory) :
    KeepsRoot (updateUser userId email enabled currentUserId) s := by
  unfold updateUser
  cases enabled with
  | true => exact bind (keepsRoot_reads (requireMutable_reads _ _) fun _ _ => done ()) fun _ t _ => updateUserFields_keepsRoot _ _ _ t
  | false => exact bind (disableUser_keepsRoot _ _ _) fun _ t _ => updateUserFields_keepsRoot _ _ _ t

theorem setUserEnabled_keepsRoot (userId : Id) (enabled : Bool) (currentUserId : Id) (s : Directory) :
    KeepsRoot (setUserEnabled userId enabled currentUserId) s := by
  unfold setUserEnabled
  cases enabled with
  | false => exact bind (disableUser_keepsRoot _ _ _) fun _ _ _ => done _
  | true =>
    refine keepsRoot_reads (requireMutable_reads _ _) fun _ t => bind (idle_commit fun t n u _ _ _ h => ?_)
      fun ns t _ => ?_
    · refine updateUsers_rootIdle (fun u hu => ?_) h
      simp only [and_eq_true, not_eq_true'] at hu
      exact ⟨hu.2, hu.2⟩
    · split
      · exact keepsRoot_reads (requireMutable_reads _ _) fun _ _ => done _
      · trivial

theorem deleteUser_keepsRoot (userId currentUserId : Id) (s : Directory) :
    KeepsRoot (deleteUser userId currentUserId) s := by
  unfold deleteUser
  split
  · exact throw _
  refine keepsRoot_reads (requireMutable_reads _ _) fun _ t => bind (idle_commit fun t n u _ _ _ h => ?_)
    fun ns t _ => ?_
  · refine deleteUsers_rootIdle (fun u hu => ?_) h
    simp only [and_eq_true, not_eq_true'] at hu
    exact hu.2
  · split
    · refine keepsRoot_reads (reads_query _) fun existing t => ?_
      cases existing with
      | none => trivial
      | some _ => exact keepsRoot_reads (requireMutable_reads _ _) fun _ _ => done _
    · trivial

theorem updateCustomer_keepsRoot (userId : Id) (active : Bool) (s : Directory) :
    KeepsRoot (updateCustomerRecord userId active) s := by
  refine keepsRoot_reads (reads_query _) fun before t => ?_
  cases before with
  | none => exact throw _
  | some _ =>
    refine keepsRoot_reads (requireMutable_reads _ _) fun _ t => bind (idle_commit fun t n u _ _ _ h => ?_)
      fun ns t _ => ?_
    · refine updateUsers_rootIdle (fun u hu => ?_) h
      simp only [and_eq_true, not_eq_true'] at hu
      exact ⟨hu.2, hu.2⟩
    · split
      · exact keepsRoot_reads (requireMutable_reads _ _) fun _ _ => throw _
      · trivial

theorem createUser_keepsRoot (userId email : Nat) (enabled : Bool) (s : Directory) :
    KeepsRoot (createUser userId email enabled) s := by
  refine bind (idle_commit fun t n u _ _ _ h => insertUsers_rootIdle (fun x hx => ?_) h) fun ns t _ => ?_
  · rw [mem_singleton.mp hx]
    rfl
  · split <;> trivial

theorem customerRole_not_root : s.isRoot (s.customerRole.map (·.id)).toList = false := by
  rw [eq_false_iff, Ne, isRoot_iff]
  rintro ⟨r, hr, hname, -, hid⟩
  rw [Option.mem_toList, Option.map_eq_some_iff] at hid
  obtain ⟨x, hx, hxid⟩ := hid
  have hmem : x ∈ s.roles.rows := mem_of_find?_eq_some hx
  have hcustomer := find?_some hx
  obtain rfl : x = r := eq_of_key hmem hr hxid
  simp [hname] at hcustomer

theorem registerUser_keepsRoot (userId email : Nat) (s : Directory) : KeepsRoot (registerUser userId email) s := by
  refine bind (idle_commit fun t n u _ _ _ h => insertUsers_rootIdle (fun x hx => ?_) h)
    fun _ t _ => bind (idle_commit fun t n u _ _ hc h => ?_) fun ns t _ => ?_
  · rw [List.mem_singleton.mp hx]
    rfl
  · -- the row that the hook rewrites is not root by the condition
    obtain ⟨-, users, hrows, rfl⟩ := update_ok h
    refine ⟨.of_eq rfl, fun x hx => ?_⟩
    show x ∈ users.rows ↔ x ∈ t.users.rows
    have hother : x ∈ t.users.rows → x.id ≠ userId := by
      rintro hmem rfl
      have hget : t.users.get? x.id = some x := mem_get? hmem
      simp [assignsToNonRoot, Directory.holdsRoot, hget, hx] at hc
    rw [hrows, List.mem_map]
    constructor
    · rintro ⟨y, hy, rfl⟩
      split at hx
      · rw [customerRole_not_root] at hx
        cases hx
      · next hmiss =>
        rw [if_neg hmiss]
        exact hy
    · intro hmem
      refine ⟨x, hmem, if_neg fun hhit => ?_⟩
      rw [and_eq_true, beq_iff_eq] at hhit
      exact hother hmem hhit.1
  · split
    · refine bind (idle_commit fun t n u _ _ _ h => deleteUsers_rootIdle (fun x hx => ?_) h)
        fun _ _ _ => throw _
      rw [and_eq_true, List.isEmpty_iff] at hx
      rw [hx.2]
      rfl
    · trivial

theorem ensureTelegramUser_keepsRoot (userId email : Nat) (s : Directory) :
    KeepsRoot (ensureTelegramUser userId email) s := by
  refine keepsRoot_reads (reads_query _) fun existing t => ?_
  cases existing with
  | some _ => trivial
  | none =>
    refine bind (idle_commit fun t n u _ _ _ h => ?_) fun _ _ _ => done ()
    have hcustomer := customerRole_not_root (s := t)
    cases hrole : t.customerRole with
    | none => simp [hrole] at h
    | some r =>
      rw [hrole] at h hcustomer
      refine insertUsers_rootIdle (fun x hx => ?_) h
      rw [mem_singleton.mp hx]
      exact hcustomer

theorem setCustomRoleEnabled_keepsRoot (roleId : Id) (enabled : Bool) (s : Directory) :
    KeepsRoot (setCustomRoleEnabled roleId enabled) s := by
  refine keepsRoot_reads (reads_query _) fun role t => ?_
  cases role with
  | none => exact throw _
  | some role =>
    dsimp only
    split
    · exact throw _
    split
    · trivial
    refine bind (idle_commit fun t n u _ ht _ h => ?_) fun _ _ _ => done _
    refine updateRoles_rootIdle ht (fun r hr => ?_) (fun r hr => hr) h
    simp only [and_eq_true, not_eq_true'] at hr
    exact hr.2

theorem createSystemRole_keepsRoot (roleId : Id) (name : Nat) (s : Directory) :
    KeepsRoot (createSystemRole roleId name) s := by
  refine bind (idle_commit fun t n u _ _ _ h => ?_) fun _ _ _ => done _
  obtain ⟨-, roles, hrows, rfl⟩ := insert_abort_ok h
  refine roles_rootIdle rfl fun r hname => ?_
  show r ∈ roles.rows ↔ r ∈ t.roles.rows
  rw [hrows, mem_append, mem_singleton]
  refine ⟨fun hmem => hmem.resolve_right ?_, Or.inl⟩
  rintro rfl
  cases hname

theorem updateSystemRole_keepsRoot (roleId : Id) (name : Nat) (s : Directory) :
    KeepsRoot (updateSystemRole roleId name) s := by
  refine keepsRoot_reads (reads_query _) fun role t => ?_
  cases role with
  | none => exact throw _
  | some role =>
    dsimp only
    split
    · exact throw _
    refine bind (idle_commit fun t n u _ ht _ h => ?_) fun _ _ _ => done _
    refine updateRoles_rootIdle ht (fun r hr => ?_) (fun r _ hn => by cases hn) h
    simp only [and_eq_true, not_eq_true'] at hr
    exact hr.2

theorem deleteSystemRole_keepsRoot (roleId : Id) (s : Directory) : KeepsRoot (deleteSystemRole roleId) s := by
  refine query fun t _ ht => ?_
  cases hrole : t.roles.get? roleId with
  | none => exact throw _
  | some role =>
    simp only [Option.map_some]
    split
    · exact throw _
    next hbuiltIn =>
    split
    · exact throw _
    refine bind (idle_commit fun u n v hr hu _ h => ?_) fun _ _ _ => done _
    obtain ⟨-, roles, hrows, rfl⟩ := delete_ok h
    have hother : ∀ r ∈ u.roles.rows, r.name = .root → r.id ≠ roleId := by
      intro r hmem hname hid
      have hbefore : r ∈ t.roles.rows := (hr r hname).mp hmem
      have hfound : t.roles.get? roleId = some r := by
        rw [← hid]
        exact mem_get? hbefore
      obtain rfl : role = r := Option.some.inj (hrole.symm.trans hfound)
      exact hbuiltIn (ht.builtIn _ hbefore hname)
    refine roles_rootIdle rfl fun r hname => ?_
    show r ∈ roles.rows ↔ r ∈ u.roles.rows
    rw [hrows, mem_filter]
    refine ⟨And.left, fun hmem => ⟨hmem, ?_⟩⟩
    simp [hother r hmem hname]

theorem userCall_keepsRoot (call : UserCall) (s : Directory) : KeepsRoot call.code s := by
  cases call with
  | replaceUserRoles => exact void (replaceUserRoles_keepsRoot _ _ _ s)
  | createUser => exact void (createUser_keepsRoot _ _ _ s)
  | updateUser => exact void (updateUser_keepsRoot _ _ _ _ s)
  | setUserEnabled => exact void (setUserEnabled_keepsRoot _ _ _ s)
  | deleteUser => exact void (deleteUser_keepsRoot _ _ s)
  | updateCustomer => exact void (updateCustomer_keepsRoot _ _ s)
  | registerUser => exact void (registerUser_keepsRoot _ _ s)
  | ensureTelegramUser => exact ensureTelegramUser_keepsRoot _ _ s
  | setRoleEnabled => exact void (setCustomRoleEnabled_keepsRoot _ _ s)
  | createRole => exact void (createSystemRole_keepsRoot _ _ s)
  | updateRole => exact void (updateSystemRole_keepsRoot _ _ s)
  | deleteRole => exact void (deleteSystemRole_keepsRoot _ s)

/-! ## Runs -/

/-- Where sign-ups give the customer role to accounts that are not root, there is an enabled root after
every run, and who has the root role changes only by a change of roles that an enabled root makes. -/
theorem root_kept_by_root {s : Directory} (hs : RootKept s) {w w' : World Directory UserSite UserError Unit}
    (h : Runs UserCall.code assignsToNonRoot ⟨s, []⟩ w)
    (hstep : Step UserCall.code assignsToNonRoot w w') :
    (∃ userId, w'.db.isEnabledRootUser userId = true) ∧ ((∀ userId, w'.db.holdsRoot userId = w.db.holdsRoot userId) ∨
        ∃ i target actor k, w'.calls = w.calls.set i k ∧
          w.site i = some (.replaceUserRoles target actor) ∧ w.db.isEnabledRootUser actor = true) := by
  have hcode : ∀ c s, userSpec.inv s → Each userSpec (fun x t u _ => RootByRoot x t u) (UserCall.code c) s :=
    fun c s _ => userCall_keepsRoot c s
  obtain ⟨hkept, -, hcalls⟩ := Runs.each hcode hs h
  cases hstep with
  | start c => exact ⟨hkept.root, Or.inl fun _ => rfl⟩
  | kill i => exact ⟨hkept.root, Or.inl fun _ => rfl⟩
  | run i l β f k hrun hc =>
    obtain ⟨hadm, hstep, -⟩ :=
      hcalls _ (mem_of_getElem? hrun) w.db (userSpec.rely_refl _ _) hkept hc
    refine ⟨hadm.inv.root, ?_⟩
    rcases hstep with heq | ⟨x, hx, hsame | ⟨target, actor, hsite, hactor⟩⟩
    · rw [heq]
      exact Or.inl fun _ => rfl
    · exact Or.inl hsame
    · refine Or.inr ⟨i, target, actor, _, rfl, ?_, hactor⟩
      rw [site, hrun, hx, hsite]

def oneRoot : Directory where
  users := .of [⟨1, 1, true, [10]⟩]
  roles := .of [⟨10, .root, true, true⟩, ⟨11, .customer, true, true⟩, ⟨12, .guest, true, true⟩]

theorem oneRoot_kept : RootKept oneRoot := ⟨by decide, 1, by decide⟩

/-- The root user makes another account root. -/
theorem root_kept_by_root_grant : ∃ w w' : World Directory UserSite UserError Unit,
    Runs UserCall.code assignsToNonRoot ⟨oneRoot, []⟩ w ∧ Step UserCall.code assignsToNonRoot w w' ∧
      w.db.holdsRoot 5 = false ∧ w'.db.holdsRoot 5 = true ∧
      ∃ userId, w'.db.isEnabledRootUser userId = true := by
  obtain ⟨w, hw⟩ : ∃ w, w = exec UserCall.code assignsToNonRoot ⟨oneRoot, []⟩
      [.start (.registerUser 5 50), .run 0, .run 0, .start (.replaceUserRoles 5 [10] 1),
        .run 1, .run 1, .run 1] := ⟨_, rfl⟩
  have hruns : Runs UserCall.code assignsToNonRoot ⟨oneRoot, []⟩ w := by
    rw [hw]
    exact exec_runs _ _ _ _
  have hbefore : w.db.holdsRoot 5 = false := by
    rw [hw]
    decide_cbv
  have hafter : (w.move UserCall.code assignsToNonRoot (.run 1)).db.holdsRoot 5 = true := by
    rw [hw]
    decide_cbv
  have hstep : Step UserCall.code assignsToNonRoot w (w.move UserCall.code assignsToNonRoot (.run 1)) := by
    refine move_step _ _ fun heq => ?_
    rw [heq, hbefore] at hafter
    cases hafter
  exact ⟨w, _, hruns, hstep, hbefore, hafter, (root_kept_by_root oneRoot_kept hruns hstep).1⟩

/-- An account that is made root before the hook of its sign-up has run loses the role to the hook. -/
theorem root_lost_by_sign_up : ∃ w : World Directory UserSite UserError Unit,
    Runs UserCall.code anySite ⟨oneRoot, []⟩ w ∧ w.db.holdsRoot 5 = true ∧ w.site 0 = some (.assignCustomerRole 5) ∧
      Step UserCall.code anySite w (w.move UserCall.code anySite (.run 0)) ∧
      (w.move UserCall.code anySite (.run 0)).db.holdsRoot 5 = false := by
  obtain ⟨w, hw⟩ : ∃ w, w = exec UserCall.code anySite ⟨oneRoot, []⟩
      [.start (.registerUser 5 50), .run 0, .start (.replaceUserRoles 5 [10] 1),
        .run 1, .run 1, .run 1, .run 1, .run 1] := ⟨_, rfl⟩
  have hbefore : w.db.holdsRoot 5 = true := by
    rw [hw]
    decide_cbv
  have hafter : (w.move UserCall.code anySite (.run 0)).db.holdsRoot 5 = false := by
    rw [hw]
    decide_cbv
  refine ⟨w, ?_, hbefore, ?_, move_step _ _ fun heq => ?_, hafter⟩
  · rw [hw]
    exact exec_runs _ _ _ _
  · rw [hw]
    decide_cbv
  · rw [heq, hbefore] at hafter
    cases hafter

end Gmshop
