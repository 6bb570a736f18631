import GmshopEdge.Rbac.Ceiling
import GmshopEdge.Lib.Sites
import GmshopEdge.Lib.Versioned

/-!
# Cached access is current

A user's access is cached under `updated_at`. Whatever changes it moves `updated_at` to a new value, with two
exceptions: a plain write sets it to the clock, which another change may have passed, and deleting a role does not
move it. `revisionsMove` is the condition that neither happens. Then the revision is one under which the access
is kept (`Versioned`), and a load answers what it has read of the tables.
-/

namespace Gmshop.Rbac

open List Sql Stmt Prog Versioned Table Bool Attests

/-! ## The property -/

def answersCurrent (x : AccessSite) (s : AccessDb) : Prop :=
  match x with
  | .answer authoritative access => access = authoritative ∧ ∃ l ∈ s.reads, l.access = authoritative
  | _ => True

/-- A plain write of a user does not move `updated_at` back, and no user has an enabled role that is deleted. -/
def revisionsMove (x : AccessSite) (s : AccessDb) : Prop :=
  freshIds x s ∧ match x with
    | .deleteRole _ roleId => ∀ r ∈ s.roles.rows, r.id = roleId → r.enabled = true → ∀ u ∈ s.users.rows, roleId ∉ u.roleIds
    | .updateCustomer userId now => ∀ u ∈ s.users.rows, u.id = userId → s.directory.isRoot u.roleIds = false →
        u.updatedAt ≤ now
    | .backfillImage userId now => ∀ u ∈ s.users.rows, u.id = userId → u.image = none → u.updatedAt ≤ now
    | _ => True

instance (x : AccessSite) (s : AccessDb) : Decidable (revisionsMove x s) := by
  rcases x with _ | _ | _ | _ | _ | _ | _ | _ <;> dsimp only [revisionsMove] <;> infer_instance

instance (x : AccessSite) (s : AccessDb) : Decidable (answersCurrent x s) := by
  rcases x with _ | _ | _ | _ | _ | _ | _ | _ <;> dsimp only [answersCurrent] <;> infer_instance

/-! ## The authority -/

/-- Each user's access under `updated_at`. -/
def accessAuthority : Authority AccessDb Id EffectiveAccess where
  current s userId := (s.users.get? userId).map fun u => (u.updatedAt, accessOf s u)
  gone s userId := userId ∈ s.removed

def wasRead (s : AccessDb) (userId revision : Nat) (access : EffectiveAccess) : Prop :=
  ⟨userId, revision, access⟩ ∈ s.reads

structure AccessSound (s : AccessDb) : Prop where
  sound : Sound accessAuthority s (wasRead s)
  normal : ∀ l ∈ s.reads, NormalMap l.access.permissions
  cache : ∀ c ∈ s.cache, wasRead s c.userId c.revision (hydrateAccess c)
  loads : ∀ l ∈ s.loads, l ∈ s.reads

theorem accessOf_normal (s : AccessDb) (u : User) : NormalMap (accessOf s u).permissions := by
  show NormalMap (if _ then _ else _)
  split
  · exact fun _ => normalizePermissionMask_of_le (Nat.zero_le _)
  · exact mergeRolePermissions_normal _

variable {access : EffectiveAccess} {s t : AccessDb} {u : User} {roleId userId : Id}
  {p : AccessDb → User → Bool} {α β : Type} {now : Time} {ns : List Nat} {x : AccessSite} {f : User → User}
  {xs : List α} {k : α → AccessProg β}

theorem hydrate_snapshot (h : NormalMap access.permissions) (userId revision : Nat) :
    hydrateAccess (snapshotOf userId revision access) = access := by
  unfold hydrateAccess snapshotOf
  rw [mergeRolePermissions_rows h]

def cacheSpec : Spec AccessDb AccessSite Empty :=
  .ofRel AccessSound revisionsMove (fun _ _ => True) (fun s t => s.reads ⊆ t.reads) (fun _ => trivial)
    (fun _ => List.Subset.refl _) fun _ _ _ h h' => List.Subset.trans h h'

structure UsersMove (s t : AccessDb) : Prop where
  moves : Moves accessAuthority s t
  gone : ∀ userId ∈ t.removed, t.users.get? userId = none
  logs : t.reads = s.reads ∧ t.cache = s.cache ∧ t.loads = s.loads

theorem UsersMove.admits (h : UsersMove s t) (hs : AccessSound s) : cacheSpec.Admits ∅ ∅ s t := by
  obtain ⟨hreads, hcache, hloads⟩ := h.logs
  have hread : wasRead t = wasRead s := by
    unfold wasRead
    rw [hreads]
  refine Spec.admits_ofRel ⟨?_, ?_, ?_, ?_⟩ trivial fun _ => ?_
  · rw [hread]
    refine hs.sound.moves h.moves fun userId hgone => ?_
    show (t.users.get? userId).map _ = none
    rw [h.gone userId hgone]
    rfl
  · rw [hreads]
    exact hs.normal
  · rw [hcache, hread]
    exact hs.cache
  · rw [hloads, hreads]
    exact hs.loads
  · show s.reads ⊆ t.reads
    rw [hreads]
    exact List.Subset.refl _

/-! ## Writes -/

theorem accessOf_congr {u' : User} (h : enabledRoles t u' = enabledRoles s u) : accessOf t u' = accessOf s u := by
  unfold accessOf
  rw [h]

theorem AccessSound.gone (hs : AccessSound s) (h : userId ∈ s.removed) :
    s.users.get? userId = none := Option.map_eq_none_iff.mp (hs.sound.gone userId h)

theorem mapUsers_move {g : User → User} (hs : AccessSound s) (hrows : t.users.rows = s.users.rows.map g)
    (hid : ∀ u, (g u).id = u.id) (hg : ∀ u ∈ s.users.rows, u.updatedAt < (g u).updatedAt ∨
      (u.updatedAt ≤ (g u).updatedAt ∧ enabledRoles t (g u) = enabledRoles s u))
    (hlogs : t.reads = s.reads ∧ t.cache = s.cache ∧ t.loads = s.loads) (hremoved : t.removed = s.removed) :
    UsersMove s t := by
  have hget : ∀ userId, t.users.get? userId = (s.users.get? userId).map g := get?_map hrows hid
  refine ⟨⟨fun userId h => ?_, fun userId r a hr => Or.inr ?_⟩, fun userId h => ?_, hlogs⟩
  · show userId ∈ t.removed
    rw [hremoved]
    exact h
  · obtain ⟨u, hu, hpair⟩ := Option.map_eq_some_iff.mp hr
    obtain ⟨rfl, rfl⟩ := Prod.mk.inj hpair
    refine ⟨(g u).updatedAt, accessOf t (g u), ?_, ?_, fun heq => ?_⟩
    · show (t.users.get? userId).map _ = _
      rw [hget, hu]
      rfl
    · rcases hg u (get?_mem hu) with hlt | ⟨hle, -⟩
      · exact hlt.le
      · exact hle
    · rcases hg u (get?_mem hu) with hlt | ⟨-, hsame⟩
      · exact absurd heq hlt.ne'
      · exact accessOf_congr hsame
  · rw [hremoved] at h
    rw [hget, hs.gone h]
    rfl

theorem bumped_lt (updatedAt now : Time) : updatedAt < bumped updatedAt now := by
  unfold bumped
  split
  · exact Nat.lt_succ_self updatedAt
  · next h => exact Nat.lt_of_not_le h

theorem updateUsers_move {f : AccessDb → User → User} {c n : Nat} (hs : AccessSound s)
    (h : update AccessDb.usersT p f c s = .ok (n, t)) (hid : ∀ u, (f s u).id = u.id)
    (hf : ∀ u ∈ s.users.rows, p s u = true → u.updatedAt < (f s u).updatedAt ∨
      (u.updatedAt ≤ (f s u).updatedAt ∧ (f s u).roleIds = u.roleIds)) : UsersMove s t := by
  obtain ⟨-, table, hrows, rfl⟩ := update_ok h
  refine mapUsers_move hs hrows (fun u => ?_) (fun u hu => ?_) ⟨rfl, rfl, rfl⟩ rfl
  · split
    · exact hid u
    · rfl
  · split
    · next hp =>
      refine (hf u hu hp).imp_right fun hkeep => ⟨hkeep.1, ?_⟩
      unfold enabledRoles
      rw [hkeep.2]
      rfl
    · exact Or.inr ⟨Nat.le_refl _, rfl⟩

theorem roles_move (hs : AccessSound s) (husers : t.users = s.users)
    (hroles : ∀ u ∈ s.users.rows, enabledRoles t u = enabledRoles s u)
    (hlogs : t.reads = s.reads ∧ t.cache = s.cache ∧ t.loads = s.loads) (hremoved : t.removed = s.removed) :
    UsersMove s t := by
  refine mapUsers_move (g := fun u => u) hs ?_ (fun _ => rfl) (fun u hu => Or.inr ⟨Nat.le_refl _, hroles u hu⟩) hlogs
    hremoved
  rw [husers, map_id']

theorem filter_map_same {p : α → Bool} {g : α → α} (h : ∀ x ∈ xs, g x = x ∨ (p x = false ∧ p (g x) = false)) :
    (xs.map g).filter p = xs.filter p := by
  induction xs with
  | nil => rfl
  | cons x xs ih =>
    have ih := ih fun y hy => h y (mem_cons_of_mem x hy)
    rw [map_cons, filter_cons, filter_cons, ih]
    rcases h x mem_cons_self with hsame | ⟨hx, hgx⟩
    · rw [hsame]
    · rw [hx, hgx]
      rfl

section

variable (hs : AccessSound s)
include hs

theorem updateRole_move {p : Role → Bool} {f : Role → Role} (hid : ∀ r, (f r).id = r.id)
    (h : batch [update AccessDb.rolesT (fun _ r => r.id == roleId && p r) (fun _ r => f r),
      bumpRoleMemberRevisions roleId now] 0 s = .ok (ns, t)) : UsersMove s t := by
  obtain ⟨n, s1, ms, hrole, hbump, -⟩ := batch_cons_ok h
  obtain ⟨k, hbump, -⟩ := batch_single_ok hbump
  obtain ⟨-, roles, hroles, rfl⟩ := update_ok hrole
  obtain ⟨-, users, husers, rfl⟩ := update_ok hbump
  refine mapUsers_move hs husers (fun u => ?_) (fun u hu => ?_) ⟨rfl, rfl, rfl⟩ rfl
  · split <;> rfl
  · split
    · exact Or.inl (bumped_lt _ _)
    · next hmember =>
      -- the rewritten role is none of theirs
      refine Or.inr ⟨Nat.le_refl _, ?_⟩
      show roles.rows.filter _ = _
      rw [hroles]
      refine filter_map_same fun r hr => ?_
      by_cases hr' : (r.id == roleId && p r) = true
      · right
        rw [Bool.and_eq_true, beq_iff_eq] at hr'
        have hnot : u.roleIds.contains r.id = false := by
          rw [hr'.1]
          exact Bool.eq_false_iff.mpr hmember
        refine ⟨by rw [hnot, Bool.and_false], ?_⟩
        split
        · rw [hid, hnot, Bool.and_false]
        · rw [hnot, Bool.and_false]
      · exact Or.inl (if_neg hr')

theorem createRole_move {role : Role} (hfresh : ∀ u ∈ s.users.rows, role.id ∉ u.roleIds)
    (h : batch [insert AccessDb.rolesT .abort fun _ => [role]] 0 s = .ok (ns, t)) : UsersMove s t := by
  obtain ⟨n, hins, -⟩ := batch_single_ok h
  obtain ⟨-, table, hrows, rfl⟩ := insert_abort_ok hins
  refine roles_move hs rfl (fun u hu => ?_) ⟨rfl, rfl, rfl⟩ rfl
  show table.rows.filter _ = _
  rw [hrows, filter_append]
  have hnot : u.roleIds.contains role.id = false := by
    rw [← Bool.not_eq_true, contains_iff_mem]
    exact hfresh u hu
  have hnone : (role.enabled && u.roleIds.contains role.id) = false := by
    rw [hnot, Bool.and_false]
  rw [filter_singleton, hnone]
  exact append_nil _

theorem deleteRole_move
    (hunused : ∀ r ∈ s.roles.rows, r.id = roleId → r.enabled = true → ∀ u ∈ s.users.rows, roleId ∉ u.roleIds)
    (h : batch [delete AccessDb.rolesT fun _ r => r.id == roleId] 0 s = .ok (ns, t)) : UsersMove s t := by
  obtain ⟨n, hdel, -⟩ := batch_single_ok h
  obtain ⟨-, table, hrows, rfl⟩ := delete_ok hdel
  refine roles_move hs rfl (fun u hu => ?_) ⟨rfl, rfl, rfl⟩ rfl
  show table.rows.filter _ = _
  rw [hrows, filter_filter]
  refine filter_congr fun r hr => ?_
  by_cases hid : r.id = roleId
  · have hnone : (r.enabled && u.roleIds.contains r.id) = false := by
      rw [Bool.and_eq_false_imp]
      intro henabled
      rw [← Bool.not_eq_true, contains_iff_mem, hid]
      exact hunused r hr hid henabled u hu
    rw [hnone, Bool.false_and]
  · rw [show (r.id == roleId) = false from beq_eq_false_iff_ne.mpr hid, Bool.not_false, Bool.and_true]

theorem createUser_move {user : User} (hfresh : user.id ∉ s.removed)
    (h : batch [insert AccessDb.usersT .doNothing fun _ => [user]] 0 s = .ok (ns, t)) : UsersMove s t := by
  obtain ⟨n, hins, -⟩ := batch_single_ok h
  obtain ⟨-, table, hrows, rfl⟩ := insert_ok hins
  refine ⟨⟨fun userId hgone => hgone, fun userId r a hr => Or.inr ⟨r, a, ?_, Nat.le_refl _, fun _ => rfl⟩⟩,
    fun userId hgone => ?_, rfl, rfl, rfl⟩
  · obtain ⟨u, hu, hpair⟩ := Option.map_eq_some_iff.mp hr
    show (table.get? userId).map _ = _
    rw [get?_append hrows hu]
    exact congrArg some hpair
  · cases hget : table.get? userId with
    | none => exact hget
    | some u =>
      have hid : u.id = userId := get?_key hget
      have hmem := get?_mem hget
      rw [hrows] at hmem
      rcases mem_append.mp hmem with hold | hnew
      · have hcurrent := hs.gone hgone
        rw [← hid, show s.users.get? u.id = some u from mem_get? hold] at hcurrent
        cases hcurrent
      · rw [mem_singleton.mp ((admitted_sublist _ _ _).mem hnew)] at hid
        exact absurd (hid ▸ hgone) hfresh

theorem deleteUser_move (hp : ∀ removed, p { s with removed := removed } = p s)
    (h : batch [noteRemoved p, delete AccessDb.usersT p] 0 s = .ok (ns, t)) : UsersMove s t := by
  obtain ⟨n, s1, ms, hnote, hdel, -⟩ := batch_cons_ok h
  obtain ⟨k, hdel, -⟩ := batch_single_ok hdel
  obtain ⟨-, rfl⟩ := Prod.mk.inj (Except.ok.inj hnote)
  obtain ⟨-, table, hrows, rfl⟩ := delete_ok hdel
  rw [hp] at hrows
  have hkept : ∀ {userId u}, table.get? userId = some u → s.users.get? userId = some u ∧ p s u = false := by
    intro userId u hu
    have hmem := get?_mem hu
    rw [hrows] at hmem
    obtain ⟨hold, hnot⟩ := mem_filter.mp hmem
    rw [← show u.id = userId from get?_key hu]
    exact ⟨mem_get? hold, by simpa using hnot⟩
  refine ⟨⟨fun userId hgone => mem_append_right _ hgone, fun userId r a hr => ?_⟩, fun userId hgone => ?_,
    rfl, rfl, rfl⟩
  · obtain ⟨u, hu, hpair⟩ := Option.map_eq_some_iff.mp hr
    have hid : u.id = userId := get?_key hu
    cases hpu : p s u with
    | true =>
      refine Or.inl (mem_append_left _ (mem_map.mpr ⟨u, ?_, hid⟩))
      exact mem_filter.mpr ⟨get?_mem hu, hpu⟩
    | false =>
      refine Or.inr ⟨r, a, ?_, Nat.le_refl _, fun _ => rfl⟩
      have hmem : u ∈ table.rows := by
        rw [hrows]
        exact mem_filter.mpr ⟨get?_mem hu, by rw [hpu]; rfl⟩
      show (table.get? userId).map _ = _
      rw [← hid, show table.get? u.id = some u from mem_get? hmem]
      exact congrArg some hpair
  · cases hget : table.get? userId with
    | none => exact hget
    | some u =>
      obtain ⟨hold, hnot⟩ := hkept hget
      rcases mem_append.mp hgone with hgone | hgone
      · obtain ⟨v, hv, hid⟩ := mem_map.mp hgone
        obtain ⟨hv, hpv⟩ := mem_filter.mp hv
        rw [← hid, show s.users.get? v.id = some v from mem_get? hv] at hold
        rw [Option.some.inj hold, hnot] at hpv
        cases hpv
      · rw [hs.gone hgone] at hold
        cases hold

end

/-! ## Loads -/

abbrev Current {α : Type} (Q : α → AccessDb → Prop) (p : AccessProg α) (s : AccessDb) : Prop :=
  Attests cacheSpec answersCurrent Q p s

abbrev Orderly {α : Type} (p : AccessProg α) (s : AccessDb) : Prop := Current (fun _ _ => True) p s

theorem Current.then {Q : α → AccessDb → Prop} {Q' : β → AccessDb → Prop} {p : AccessProg α}
    (hp : Current Q p s) (hk : ∀ a t, Q a t → Current Q' (k a) t) : Current Q' (p >>= k) s :=
  bind hp fun a t _ hQ => hk a t hQ

theorem AccessSound.read (hs : AccessSound s) (hu : s.users.get? userId = some u) :
    AccessSound { s with reads := s.reads ++ [⟨userId, u.updatedAt, accessOf s u⟩] } := by
  have hread : wasRead { s with reads := s.reads ++ [⟨userId, u.updatedAt, accessOf s u⟩] } = fun k r a =>
      wasRead s k r a ∨ (k = userId ∧ r = u.updatedAt ∧ a = accessOf s u) := by
    funext k r a
    unfold wasRead
    rw [mem_append, mem_singleton, AccessLoad.mk.injEq]
  refine ⟨?_, fun l hl => ?_, fun c hc => mem_append_left _ (hs.cache c hc), fun l hl =>
    mem_append_left _ (hs.loads l hl)⟩
  · rw [hread]
    have hcurrent : accessAuthority.current s userId = some (u.updatedAt, accessOf s u) := by
      show (s.users.get? userId).map _ = _
      rw [hu]
      rfl
    exact (hs.sound.read hcurrent).same rfl rfl
  · rcases mem_append.mp hl with hl | hl
    · exact hs.normal l hl
    · rw [mem_singleton.mp hl]
      exact accessOf_normal s u

theorem readAccess_current (userId : Id) (s : AccessDb) :
    Current (fun row t => ∀ enabled load, row = some (enabled, load) → load ∈ t.reads ∧ load.userId = userId)
      (readAccess userId) s := by
  refine act fun t _ hs _ => ⟨trivial, ?_⟩
  unfold accessRow
  cases hu : t.users.get? userId with
  | none =>
    have hnone : ({ t with reads := t.reads ++ [] } : AccessDb) = t := by rw [append_nil]
    refine ⟨?_, done nofun⟩
    show cacheSpec.Admits ∅ ∅ t { t with reads := t.reads ++ [] }
    rw [hnone]
    exact Spec.admits_refl _ hs
  | some u =>
    refine ⟨Spec.admits_ofRel (hs.read hu) trivial fun _ => subset_append_left _ _, done ?_⟩
    intro enabled load heq
    obtain ⟨-, rfl⟩ := Prod.mk.inj (Option.some.inj heq)
    exact ⟨mem_append_right _ (mem_singleton.mpr rfl), rfl⟩

theorem loadAuthoritativeAccess_current (userId : Id) (s : AccessDb) :
    Current (fun loaded t => wasRead t userId loaded.1 loaded.2) (loadAuthoritativeAccess userId) s := by
  refine (readAccess_current userId s).then fun row t hrow => ?_
  split
  · exact throw _
  · next enabled load =>
    split
    · exact throw _
    · obtain ⟨hmem, rfl⟩ := hrow enabled load rfl
      exact done hmem

theorem answer_current {userId revision : Nat} {authoritative : EffectiveAccess}
    (heq : access = authoritative) (hread : wasRead s userId revision authoritative) :
    Orderly (answer userId revision authoritative access) s := by
  subst heq
  refine act fun t hr hs _ => ⟨⟨rfl, _, hr hread, rfl⟩, Spec.admits_ofRel ⟨hs.sound.same rfl rfl, hs.normal, hs.cache, fun l hl => ?_⟩ trivial
    fun _ => List.Subset.refl _, done trivial⟩
  rcases mem_append.mp hl with hl | hl
  · exact hs.loads l hl
  · rw [mem_singleton.mp hl]
    exact hr hread

theorem found_of_key {p : α → Bool} {i : Nat} {x : α} (h : (xs.filter p)[i]? = some x) :
    x ∈ xs ∧ p x = true := mem_filter.mp (mem_of_getElem? h)

theorem loadEffectiveUserAccess_current (userId : Id) (share hit : Nat) (s : AccessDb) :
    Orderly (loadEffectiveUserAccess userId share hit) s := by
  refine (loadAuthoritativeAccess_current userId s).then fun loaded t hread => ?_
  obtain ⟨revision, authoritative⟩ := loaded
  refine query fun u hr hu => ?_
  have hread : wasRead u userId revision authoritative := hr hread
  split
  · next load hload =>
    obtain ⟨hmem, hkey⟩ := found_of_key hload
    rw [and_eq_true, beq_iff_eq, beq_iff_eq] at hkey
    obtain ⟨rfl, rfl⟩ := hkey
    exact answer_current (hu.sound.agree _ _ _ _ (hu.loads load hmem) hread) hread
  · refine query fun v hr hv => ?_
    have hread : wasRead v userId revision authoritative := hr hread
    split
    · next snapshot hhit =>
      obtain ⟨hmem, hkey⟩ := found_of_key hhit
      rw [and_eq_true, beq_iff_eq, beq_iff_eq] at hkey
      obtain ⟨rfl, rfl⟩ := hkey
      exact answer_current (hv.sound.agree _ _ _ _ (hv.cache snapshot hmem) hread) hread
    · refine act fun v' hr hv' _ => ⟨trivial, ?_, ?_⟩
      · have hread : wasRead v' userId revision authoritative := hr hread
        refine Spec.admits_ofRel ⟨hv'.sound.same rfl rfl, hv'.normal, fun c hc => ?_, hv'.loads⟩ trivial fun _ => List.Subset.refl _
        rcases mem_append.mp hc with hc | hc
        · exact hv'.cache c hc
        · rw [mem_singleton.mp hc, hydrate_snapshot (hv'.normal _ hread)]
          exact hread
      · exact answer_current rfl (hr hread)

/-! ## Calls -/

theorem Current.read {Q : β → AccessDb → Prop} {g : AccessDb → α} (hk : ∀ t, Current Q (k (g t)) t) :
    Current Q (query g >>= k) s :=
  query fun t _ _ => hk t

theorem orderly_commit {sts : List (Stmt AccessDb)} (hx : ∀ t, answersCurrent x t)
    (h : ∀ t ns u, AccessSound t → revisionsMove x t → batch sts 0 t = .ok (ns, u) → UsersMove t u) :
    Orderly (commit x sts : AccessProg (List Nat)) s :=
  write fun t _ ht hc => ⟨hx t, fun ns u hb => ⟨(h t ns u ht hc hb).admits ht, trivial⟩⟩

theorem requireAdmin_current (operator : Operator) (permission : PermissionRow) (s : AccessDb) :
    Orderly (requireAdmin operator permission) s := by
  refine (loadEffectiveUserAccess_current _ _ _ s).then fun access t _ => ?_
  split
  · exact done trivial
  · exact throw _

theorem withinActor_current (actor : EffectiveAccess) (requested : List PermissionRow) (s : AccessDb) :
    Orderly (withinActor actor requested) s := by
  unfold withinActor
  split
  · exact done trivial
  · exact throw _

theorem saveSystemRole_current (operator : Operator) (id : Option Id) (newId name : Nat)
    (grants : List PermissionRow) (now : Time) (s : AccessDb) :
    Orderly (saveSystemRole operator id newId name grants now) s := by
  refine (requireAdmin_current _ _ s).then fun actor t _ => (withinActor_current _ _ t).then fun _ t _ => ?_
  cases id with
  | some id =>
    refine Current.read fun t => ?_
    split
    · exact throw _
    · split
      · exact throw _
      · refine Current.then (orderly_commit (fun _ => trivial) fun t ns u ht _ hb => ?_) fun _ t _ => done trivial
        refine updateRole_move ht ?_ hb
        exact fun _ => rfl
  | none =>
    refine Current.then (orderly_commit (fun _ => trivial) fun t ns u ht hc hb => ?_) fun _ t _ => done trivial
    refine createRole_move ht ?_ hb
    exact hc.1

theorem deleteSystemRole_current (operator : Operator) (id : Id) (s : AccessDb) :
    Orderly (deleteSystemRole operator id) s := by
  refine (requireAdmin_current _ _ s).then fun _ t _ => Current.read fun t => ?_
  split
  · exact throw _
  · split
    · exact throw _
    · split
      · exact throw _
      · refine Current.then (orderly_commit (fun _ => trivial) fun t ns u ht hc hb => ?_) fun _ t _ => done trivial
        exact deleteRole_move ht hc.2 hb

theorem setSystemRoleEnabled_current (operator : Operator) (id : Id) (enabled : Bool) (now : Time) (s : AccessDb) :
    Orderly (setSystemRoleEnabled operator id enabled now) s := by
  refine (requireAdmin_current _ _ s).then fun _ t _ => Current.read fun t => ?_
  split
  · exact throw _
  · split
    · exact throw _
    · split
      · exact done trivial
      · refine Current.then (orderly_commit (fun _ => trivial) fun t ns u ht _ hb => ?_) fun _ t _ => done trivial
        refine updateRole_move ht ?_ hb
        exact fun _ => rfl

theorem bumpUsers_current (hx : ∀ t, answersCurrent x t) (hid : ∀ u, (f u).id = u.id) :
    Orderly (commit x [update AccessDb.usersT p fun _ u => { f u with updatedAt := bumped u.updatedAt now }] :
      AccessProg (List Nat)) s := by
  refine orderly_commit hx fun t ns u ht _ hb => ?_
  obtain ⟨n, hupdate, -⟩ := batch_single_ok hb
  exact updateUsers_move ht hupdate hid fun _ _ _ => Or.inl (bumped_lt _ _)

theorem replaceUserRolesAtomically_current (actor : EffectiveAccess) (granted : List (Id × List PermissionRow))
    (userId : Id) (roleIds : List Id) (currentUserId : Id) (now : Time) (s : AccessDb) :
    Orderly (replaceUserRolesAtomically actor granted userId roleIds currentUserId now) s := by
  unfold replaceUserRolesAtomically
  split
  · exact throw _
  refine Current.read fun t => ?_
  split
  · exact throw _
  refine Current.read fun t => ?_
  split
  · exact throw _
  refine Current.read fun t => ?_
  split
  · exact throw _
  refine Current.then (bumpUsers_current (f := fun u => { u with roleIds := roleIds }) (fun _ => trivial)
    fun _ => rfl) fun changes t _ => ?_
  split
  · refine Current.read fun t => ?_
    split
    · exact throw _
    · refine Current.read fun t => ?_
      split
      · exact throw _
      · exact throw _
  · refine Current.read fun t => ?_
    split
    · exact throw _
    · exact done trivial

theorem setUserRoles_current (operator : Operator) (userId : Id) (roleIds : List Id) (now : Time) (s : AccessDb) :
    Orderly (setUserRoles operator userId roleIds now) s := by
  unfold setUserRoles
  split
  · exact throw _
  refine (requireAdmin_current _ _ s).then fun actor t _ => Current.read fun t => ?_
  split
  · exact throw _
  exact (withinActor_current _ _ t).then fun _ t _ => replaceUserRolesAtomically_current _ _ _ _ _ _ t

theorem requireMutable_current (userId : Id) (notFound : DomainError) (s : AccessDb) :
    Orderly (requireMutableNonRootUser userId notFound) s := by
  refine Current.read fun t => ?_
  split
  · exact throw _
  · split
    · exact throw _
    · exact done trivial

theorem editUser_current (now : Time) (s : AccessDb) (hid : ∀ u, (f u).id = u.id) :
    Orderly (editUser userId p f now) s :=
  bumpUsers_current (fun _ => trivial) hid

theorem createUser_current (userId email : Nat) (enabled : Bool) (now : Time) (s : AccessDb) :
    Orderly (createUser userId email enabled now) s := by
  refine Current.then (orderly_commit (fun _ => trivial) fun t ns u ht hc hb => ?_) fun changes t _ => ?_
  · refine createUser_move ht ?_ hb
    exact hc.1
  · split
    · exact throw _
    · exact done trivial

theorem disableUserAtomically_current (userId currentUserId : Id) (now : Time) (s : AccessDb) :
    Orderly (disableUserAtomically userId currentUserId now) s := by
  unfold disableUserAtomically
  split
  · exact throw _
  refine (requireMutable_current _ _ s).then fun _ t _ => Current.then (editUser_current now t fun _ => rfl)
    fun changes t _ => ?_
  split
  · exact done trivial
  · refine (requireMutable_current _ _ t).then fun enabled t _ => ?_
    split
    · exact throw _
    · exact done trivial

theorem updateUser_current (userId email : Nat) (enabled : Bool) (currentUserId : Id) (now : Time) (s : AccessDb) :
    Orderly (updateUser userId email enabled currentUserId now) s := by
  have hfirst : Orderly (if enabled then (requireMutableNonRootUser userId).void
      else disableUserAtomically userId currentUserId now) s := by
    split
    · exact (requireMutable_current _ _ s).then fun _ _ _ => done trivial
    · exact disableUserAtomically_current _ _ _ s
  refine hfirst.then fun _ t _ => Current.then (editUser_current now t fun _ => rfl) fun changes t _ => ?_
  split
  · refine Current.read fun t => ?_
    split
    · exact throw _
    · exact (requireMutable_current _ _ t).then fun _ t _ => throw _
  · exact done trivial

theorem setUserEnabled_current (userId : Id) (enabled : Bool) (currentUserId : Id) (now : Time) (s : AccessDb) :
    Orderly (setUserEnabled userId enabled currentUserId now) s := by
  unfold setUserEnabled
  split
  · refine (requireMutable_current _ _ s).then fun _ t _ => Current.then (editUser_current now t fun _ => rfl)
      fun changes t _ => ?_
    split
    · exact (requireMutable_current _ _ t).then fun _ t _ => done trivial
    · exact done trivial
  · exact (disableUserAtomically_current _ _ _ s).then fun _ t _ => done trivial

theorem deleteUser_current (userId currentUserId : Id) (s : AccessDb) : Orderly (deleteUser userId currentUserId) s := by
  unfold deleteUser
  split
  · exact throw _
  refine (requireMutable_current _ _ s).then fun _ t _ =>
    Current.then (orderly_commit (fun _ => trivial) fun t ns u ht _ hb => ?_) fun changes t _ => ?_
  · exact deleteUser_move ht (fun _ => rfl) hb
  · split
    · refine Current.read fun t => ?_
      split
      · exact done trivial
      · exact (requireMutable_current _ _ t).then fun _ t _ => done trivial
    · exact done trivial

theorem updateCustomerRecord_current (userId : Id) (active : Bool) (now : Time) (s : AccessDb) :
    Orderly (updateCustomerRecord userId active now) s := by
  refine Current.read fun t => ?_
  split
  · exact throw _
  refine (requireMutable_current _ _ t).then fun _ t _ =>
    Current.then (orderly_commit (fun _ => trivial) fun t ns u ht hc hb => ?_) fun changes t _ => ?_
  · obtain ⟨n, hupdate, -⟩ := batch_single_ok hb
    refine updateUsers_move ht hupdate (fun _ => rfl) fun v hv hp => Or.inr ⟨?_, rfl⟩
    simp only [and_eq_true, beq_iff_eq, not_eq_true'] at hp
    exact hc.2 v hv hp.1 hp.2
  · split
    · exact (requireMutable_current _ _ t).then fun _ t _ => throw _
    · exact done trivial

theorem backfillImage_current (userId : Id) (image : String) (now : Time) (s : AccessDb) :
    Orderly (backfillImage userId image now) s := by
  refine Current.then (orderly_commit (fun _ => trivial) fun t ns u ht hc hb => ?_) fun _ t _ => done trivial
  obtain ⟨n, hupdate, -⟩ := batch_single_ok hb
  refine updateUsers_move ht hupdate (fun _ => rfl) fun v hv hp => Or.inr ⟨?_, rfl⟩
  simp only [and_eq_true, beq_iff_eq, Option.isNone_iff_eq_none] at hp
  exact hc.2 v hv hp.1 hp.2

theorem accessCall_current (call : AccessCall) (s : AccessDb) : Orderly call.code s := by
  cases call with
  | load operator => exact (loadEffectiveUserAccess_current _ _ _ s).then fun _ _ _ => done trivial
  | saveRole operator id newId name grants now =>
    exact (saveSystemRole_current _ _ _ _ _ _ s).then fun _ _ _ => done trivial
  | setRoleEnabled operator id enabled now =>
    exact (setSystemRoleEnabled_current _ _ _ _ s).then fun _ _ _ => done trivial
  | deleteRole operator id => exact (deleteSystemRole_current _ _ s).then fun _ _ _ => done trivial
  | setUserRoles operator userId roleIds now =>
    exact (setUserRoles_current _ _ _ _ s).then fun _ _ _ => done trivial
  | createUser userId email enabled now =>
    exact (createUser_current _ _ _ _ s).then fun _ _ _ => done trivial
  | updateUser userId email enabled currentUserId now =>
    exact (updateUser_current _ _ _ _ _ s).then fun _ _ _ => done trivial
  | setUserEnabled userId enabled currentUserId now =>
    exact (setUserEnabled_current _ _ _ _ s).then fun _ _ _ => done trivial
  | deleteUser userId currentUserId => exact (deleteUser_current _ _ s).then fun _ _ _ => done trivial
  | updateCustomer userId active now =>
    exact (updateCustomerRecord_current _ _ _ s).then fun _ _ _ => done trivial
  | signIn userId image now => exact backfillImage_current _ _ _ s

/-! ## Runs -/

structure AccessStart (s : AccessDb) : Prop where
  cache : s.cache = []
  loads : s.loads = []
  reads : s.reads = []
  removed : s.removed = []

theorem AccessStart.sound (h : AccessStart s) : AccessSound s := by
  have hread : ∀ l, l ∉ s.reads := by
    rw [h.reads]
    exact fun _ => not_mem_nil
  refine ⟨⟨fun userId hgone => ?_, fun k r a a' hr => absurd hr (hread _), fun k r a hr => absurd hr (hread _)⟩,
    fun l hl => absurd hl (hread l), fun c hc => ?_, fun l hl => ?_⟩
  · have hgone : userId ∈ s.removed := hgone
    rw [h.removed] at hgone
    cases hgone
  · rw [h.cache] at hc
    cases hc
  · rw [h.loads] at hl
    cases hl

/-- Where every write moves the revisions that it should, a load answers what it has read of the tables, whatever
the cache holds and whichever load it joins. -/
theorem cached_access_current {s : AccessDb} (hs : AccessStart s) {w : World AccessDb AccessSite AccessError Unit}
    (h : Runs AccessCall.code revisionsMove ⟨s, []⟩ w) {i : Nat} {authoritative access : EffectiveAccess}
    (hsite : w.site i = some (.answer authoritative access)) :
    access = authoritative ∧ ∃ l ∈ w.db.reads, l.access = authoritative :=
  Runs.asserts (S := cacheSpec) (fun call t _ => (accessCall_current call t).asserts) hs.sound h hsite
    ⟨trivial, trivial⟩

/-- A member of the role is loaded again after the role was edited, from what another load has cached. -/
theorem cached_access_current_edited : ∃ (w : World AccessDb AccessSite AccessError Unit) (authoritative access : _),
    Runs AccessCall.code revisionsMove ⟨staff, []⟩ w ∧ w.site 3 = some (.answer authoritative access) ∧
      access.grants .orders .read = true ∧ (∃ l ∈ w.db.reads, l.access.grants .orders .read = false) ∧
      access = authoritative ∧ ∃ l ∈ w.db.reads, l.access = authoritative := by
  obtain ⟨w, hw⟩ : ∃ w, w = World.exec AccessCall.code revisionsMove ⟨staff, []⟩
      (oneByOne [.load ⟨2, 9, 9⟩, .saveRole ⟨1, 9, 9⟩ (some 20) 0 2 [⟨.orders, 1⟩] 200, .load ⟨2, 9, 9⟩] 7 ++
        [Move.start (.load ⟨2, 9, 0⟩), Move.run 3, Move.run 3, Move.run 3]) := ⟨_, rfl⟩
  have hruns : Runs AccessCall.code revisionsMove ⟨staff, []⟩ w := by
    rw [hw]
    exact World.exec_runs _ _ _ _
  have hsite : ∃ authoritative access, w.site 3 = some (.answer authoritative access) ∧
      access.grants .orders .read = true := by
    rw [hw]
    exact ⟨_, _, rfl, by decide⟩
  have hread : ∃ l ∈ w.db.reads, l.access.grants .orders .read = false := by
    rw [hw]
    decide
  obtain ⟨authoritative, access, hsite, hgrants⟩ := hsite
  refine ⟨w, authoritative, access, hruns, hsite, hgrants, hread, ?_⟩
  exact cached_access_current ⟨rfl, rfl, rfl, rfl⟩ hruns hsite

/-- A sign-in sets the revision back to one that is cached: the load answers without the edit. -/
theorem cached_access_stale : ∃ (w : World AccessDb AccessSite AccessError Unit) (authoritative access : _),
    Runs AccessCall.code freshIds ⟨staff, []⟩ w ∧ w.site 3 = some (.answer authoritative access) ∧
      authoritative.grants .orders .read = true ∧ access.grants .orders .read = false := by
  obtain ⟨w, hw⟩ : ∃ w, w = World.exec AccessCall.code freshIds ⟨staff, []⟩
      (oneByOne [.load ⟨2, 9, 9⟩, .saveRole ⟨1, 9, 9⟩ (some 20) 0 2 [⟨.orders, 1⟩] 100, .signIn 2 "image" 100] 7 ++
        [Move.start (.load ⟨2, 9, 0⟩), Move.run 3, Move.run 3, Move.run 3]) := ⟨_, rfl⟩
  have hruns : Runs AccessCall.code freshIds ⟨staff, []⟩ w := by
    rw [hw]
    exact World.exec_runs _ _ _ _
  have hsite : ∃ authoritative access, w.site 3 = some (.answer authoritative access) ∧
      authoritative.grants .orders .read = true ∧ access.grants .orders .read = false := by
    rw [hw]
    exact ⟨_, _, rfl, by decide⟩
  obtain ⟨authoritative, access, hsite⟩ := hsite
  exact ⟨w, authoritative, access, hruns, hsite⟩

end Gmshop.Rbac
