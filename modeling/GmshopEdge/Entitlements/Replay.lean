import GmshopEdge.Entitlements.Ledger

/-!
# The entitlement ledger as a replay

An activation stacks the limits and the expiry of its grant on those of the entitlement, a refund
rebuilds them from the grants that stay. Both end where `sumGranted` and `rebuildExpiry` end on the
active grants (`ledger_equals_replay`), because grants are activated at times that do not decrease.
The one way out is an activation whose first statement is guarded off and whose second is not
(`activationGuarded`).
-/

namespace Gmshop

open List Sql Stmt Prog Table Bool

/-! ## Folding in the order of time -/

section Fold

variable {α β : Type} {f : β → α → β} {key : α → Nat}

theorem foldl_sorted_perm (hf : ∀ x a b, key a = key b → f (f x a) b = f (f x b) a) {l l' : List α}
    (hp : l.Perm l') (hl : l.Pairwise fun a b => key a ≤ key b)
    (hl' : l'.Pairwise fun a b => key a ≤ key b) (x : β) : l.foldl f x = l'.foldl f x := by
  induction l generalizing l' x with
  | nil => rw [nil_perm.mp hp]
  | cons a l ih =>
    rw [pairwise_cons] at hl
    obtain ⟨p, q, rfl⟩ := append_of_mem (hp.subset mem_cons_self)
    have hpq : l.Perm (p ++ q) := List.Perm.cons_inv (hp.trans perm_middle)
    rw [pairwise_append, pairwise_cons] at hl'
    obtain ⟨hsp, ⟨haq, hsq⟩, hcross⟩ := hl'
    -- what stands before `a` on the other side is as old as `a`
    have htie : ∀ b ∈ p, key b = key a := fun b hb =>
      Nat.le_antisymm (hcross b hb a mem_cons_self) (hl.1 b (hpq.mem_iff.mpr (mem_append_left _ hb)))
    have hfront : ∀ y, p.foldl f (f y a) = f (p.foldl f y) a := by
      clear hp hpq hsp hcross
      induction p with
      | nil => exact fun _ => rfl
      | cons b p ihp =>
        intro y
        have hb : key a = key b := (htie b mem_cons_self).symm
        rw [foldl_cons, foldl_cons, hf y a b hb]
        exact ihp (fun c hc => htie c (mem_cons_of_mem _ hc)) _
    rw [foldl_cons, foldl_append, foldl_cons, ← hfront, ← foldl_append]
    refine ih hpq hl.2 ?_ _
    rw [pairwise_append]
    exact ⟨hsp, hsq, fun b hb c hc => hcross b hb c (mem_cons_of_mem _ hc)⟩

end Fold

/-! ## The limits of some grants -/

variable {a b g : EntitlementGrant} {s t : Db} {req : Bool} {c : Nat} {ns : List Nat} {later : Time}
  {guard : Option RefundGuard} {orderId : Id}

section Limits

variable {l l' : List EntitlementGrant} {key : EntitlementGrant → Option Nat}

theorem sumGranted_perm (h : l.Perm l') : sumGranted l key = sumGranted l' key := by
  unfold sumGranted
  rw [h.isEmpty_eq, h.any_eq, h.foldl_eq' (fun _ _ _ _ _ => by omega) 0]

theorem sumGranted_concat (g : EntitlementGrant) :
    sumGranted (l ++ [g]) key = stackedLimit (key g) (!l.isEmpty) (sumGranted l key) := by
  unfold sumGranted stackedLimit
  cases hk : key g with
  | none => simp [hk]
  | some n =>
    cases l with
    | nil => simp [hk]
    | cons a l =>
      have hany : (a :: l ++ [g]).any (fun g => (key g).isNone) = (a :: l).any fun g => (key g).isNone := by
        simp [hk]
      rw [hany]
      generalize (a :: l).any (fun g => (key g).isNone) = unlimited
      cases unlimited <;> simp [hk]

/-- `grant.activated_at ?? 0`. -/
def grantTime (g : EntitlementGrant) : Time := g.activatedAt.getD 0

theorem rebuildExpiry_perm (h : l.Perm l') (hl : l.Pairwise fun a b => grantTime a ≤ grantTime b)
    (hl' : l'.Pairwise fun a b => grantTime a ≤ grantTime b) :
    rebuildExpiry l = rebuildExpiry l' := by
  unfold rebuildExpiry
  rw [h.isEmpty_eq, h.any_eq, foldl_sorted_perm (fun x a b (hab : grantTime a = grantTime b) => ?_) h hl hl' 0]
  have htie : ∀ x t d e : Nat, max (max x t + d) t + e = max (max x t + e) t + d := by omega
  unfold grantTime at hab
  rw [hab]
  exact htie _ _ _ _

theorem rebuildExpiry_concat {now : Time} (hg : g.activatedAt = some now) :
    rebuildExpiry (l ++ [g]) = stackedExpiry g.durationMs (!l.isEmpty) (rebuildExpiry l) now := by
  unfold rebuildExpiry stackedExpiry
  cases hd : g.durationMs with
  | none => simp [hd]
  | some d =>
    cases l with
    | nil => simp [hd, hg]
    | cons a l =>
      have hany : (a :: l ++ [g]).any (fun g => g.durationMs.isNone) = (a :: l).any fun g => g.durationMs.isNone := by
        simp [hd]
      have hmax : ∀ t n d : Nat, max t n + d = if n < t then t + d else n + d := by
        intro t n d
        split <;> omega
      rw [hany, foldl_append]
      generalize (a :: l).any (fun g => g.durationMs.isNone) = permanent
      cases permanent <;> simp [hd, hg, hmax]

end Limits

/-! ## The active grants -/

/-- The active grants of an entitlement, in the order of activation (`ORDER BY activated_at,
created_at, id`). -/
def activeGrants (s : Db) (entitlementId : Id) : List EntitlementGrant :=
  List.insertionSort (fun a b => grantOrder a b = true) (s.grants.rows.filter fun g =>
    g.entitlementId == entitlementId && g.status == .active)

theorem grantOrder_time (h : grantOrder a b = true) : grantTime a ≤ grantTime b := by
  simp only [grantOrder, or_eq_true, and_eq_true, decide_eq_true_eq, beq_iff_eq] at h
  rcases h with h | ⟨h, -⟩
  · exact Nat.le_of_lt h
  · exact Nat.le_of_eq h

theorem grantOrder_iff : grantOrder a b = true ↔ grantTime a < grantTime b ∨ (grantTime a = grantTime b ∧
      (a.createdAt < b.createdAt ∨ (a.createdAt = b.createdAt ∧ a.id ≤ b.id))) := by
  simp only [grantOrder, grantTime, or_eq_true, and_eq_true, decide_eq_true_eq, beq_iff_eq]

theorem grantOrder_sorted (l : List EntitlementGrant) :
    (insertionSort (fun a b => grantOrder a b = true) l).Pairwise fun a b => grantTime a ≤ grantTime b := by
  have htotal : Std.Total fun a b : EntitlementGrant => grantOrder a b = true := by
    have hlex : ∀ x y z x' y' z' : Nat, (x < x' ∨ (x = x' ∧ (y < y' ∨ (y = y' ∧ z ≤ z')))) ∨
          (x' < x ∨ (x' = x ∧ (y' < y ∨ (y' = y ∧ z' ≤ z)))) := by omega
    refine ⟨fun a b => ?_⟩
    rw [grantOrder_iff, grantOrder_iff]
    exact hlex _ _ _ _ _ _
  have htrans : IsTrans _ fun a b : EntitlementGrant => grantOrder a b = true := by
    have hlex : ∀ x y z x' y' z' u v w : Nat, (x < x' ∨ (x = x' ∧ (y < y' ∨ (y = y' ∧ z ≤ z')))) →
        (x' < u ∨ (x' = u ∧ (y' < v ∨ (y' = v ∧ z' ≤ w)))) → (x < u ∨ (x = u ∧ (y < v ∨ (y = v ∧ z ≤ w)))) := by omega
    refine ⟨fun a b c => ?_⟩
    rw [grantOrder_iff, grantOrder_iff, grantOrder_iff]
    exact hlex _ _ _ _ _ _ _ _ _
  exact (pairwise_insertionSort _ l).imp grantOrder_time

theorem mem_activeGrants {entitlementId : Id} : g ∈ activeGrants s entitlementId ↔
      g ∈ s.grants.rows ∧ g.entitlementId = entitlementId ∧ g.status = .active := by
  unfold activeGrants
  rw [mem_insertionSort, mem_filter, and_eq_true, beq_iff_eq, beq_iff_eq]

/-! ## What an activation does -/

def activatedGrant (now : Time) (g : EntitlementGrant) : EntitlementGrant :=
  { g with status := .active, activatedAt := some now, appliedAt := some now }

/-- The entitlement row after a grant was applied; `prior` says that it had an active one. -/
def stackedEntitlement (g : EntitlementGrant) (prior : Bool) (now : Time) (e : CustomerEntitlement) :
    CustomerEntitlement :=
  { e with
    status := .active
    usageLimit := stackedLimit g.usageGranted prior e.usageLimit
    accessLimit := stackedLimit g.accessGranted prior e.accessLimit
    activatedAt := some (e.activatedAt.getD now)
    expiresAt := stackedExpiry g.durationMs prior e.expiresAt now }

/-- An activation has applied the grant `g` to the entitlement `e`. -/
structure Activated (now : Time) (g : EntitlementGrant) (e : CustomerEntitlement) (s t : Db) :
    Prop where
  grant : g ∈ s.grants.rows
  pending : g.status = .pending
  entitlement : e ∈ s.entitlements.rows
  owner : e.id = g.entitlementId
  grants : t.grants.rows =
    s.grants.rows.map fun x => if x.id = g.id then activatedGrant now x else x
  entitlements : t.entitlements.rows = s.entitlements.rows.map fun x =>
    if x.id = e.id then stackedEntitlement g (!(activeGrants s e.id).isEmpty) now x else x

/-- The condition: a grant that the first statement of its activation passes over (an access or an
upgrade order of the item is open, or its download is missing) is of no active entitlement, so the
second one passes over it as well. -/
def activationGuarded (orderItemId : Id) (requireDownloadAsset : Bool) (s : Db) : Prop :=
  ∀ g ∈ s.grants.rows, g.sourceOrderItemId = orderItemId → g.status = .pending →
    g.appliedAt = none → appliableGrant s orderItemId requireDownloadAsset g = true ∨
      ∀ e ∈ s.entitlements.rows, e.id = g.entitlementId → e.status ≠ .active

instance (orderItemId : Id) (requireDownloadAsset : Bool) (s : Db) :
    Decidable (activationGuarded orderItemId requireDownloadAsset s) :=
  inferInstanceAs (Decidable (∀ g ∈ s.grants.rows, _))

section Activation

variable {s : Db} {orderItemId : Id}

theorem grant_unique {g' : EntitlementGrant} (hg : g ∈ s.grants.rows) (hg' : g' ∈ s.grants.rows)
    (h : g.sourceOrderItemId = g'.sourceOrderItemId) : g = g' := by
  refine eq_of_clash hg hg' ?_ ?_
  · simp [Row.clash, h]
  · simp [Row.clash, h]

theorem grantOf_eq (hg : g ∈ s.grants.rows) : grantOf s g.sourceOrderItemId = some g := by
  unfold grantOf
  cases hf : s.grants.rows.find? fun x => x.sourceOrderItemId == g.sourceOrderItemId with
  | none =>
    have := find?_eq_none.mp hf g hg
    simp at this
  | some x =>
    have hx := find?_some hf
    rw [beq_iff_eq] at hx
    rw [grant_unique (mem_of_find?_eq_some hf) hg hx]

theorem prior_iff (entitlementId : Id) :
    (s.grants.exist fun g => g.entitlementId == entitlementId && g.status == .active) =
      !(activeGrants s entitlementId).isEmpty := by
  rw [Bool.eq_iff_iff, exist_iff]
  constructor
  · rintro ⟨g, hg, hp⟩
    rw [Bool.and_eq_true, beq_iff_eq, beq_iff_eq] at hp
    have hmem : g ∈ activeGrants s entitlementId := (mem_activeGrants).mpr ⟨hg, hp⟩
    simpa using ne_nil_of_mem hmem
  · intro h
    obtain ⟨g, hg⟩ := exists_mem_of_ne_nil (activeGrants s entitlementId) (by simpa using h)
    obtain ⟨hmem, hid, hst⟩ := (mem_activeGrants).mp hg
    exact ⟨g, hmem, by simp [hid, hst]⟩

theorem appliableGrant_spec (h : appliableGrant s orderItemId req g = true) :
    g.sourceOrderItemId = orderItemId ∧ g.status = .pending ∧ g.appliedAt = none := by
  simp only [appliableGrant, and_eq_true, beq_iff_eq, Option.isNone_iff_eq_none] at h
  exact ⟨h.1.1.1.1.1, h.1.1.1.1.2, h.1.1.1.2⟩

theorem activation_ok {now : Time} (hguard : activationGuarded orderItemId req s)
    (hb : batch (activateEntitlementGrantStatements orderItemId now req) c s = .ok (ns, t)) :
    t = s ∨ ∃ g e, Activated now g e s t := by
  obtain ⟨n1, s1, n2, s2, h1, h2, rfl⟩ := batch_two_ok hb
  by_cases happ : ∃ g ∈ s.grants.rows, appliableGrant s orderItemId req g = true ∧
      ∃ e ∈ s.entitlements.rows, e.id = g.entitlementId
  · obtain ⟨g, hg, hga, e, he, heg⟩ := happ
    obtain ⟨hsource, hpending, hnew⟩ := appliableGrant_spec hga
    obtain ⟨-, te, hte, rfl⟩ := update_ok h1
    obtain ⟨-, tg, htg, rfl⟩ := update_ok h2
    have hte' : te.rows = s.entitlements.rows.map fun x =>
        if x.id = e.id then stackedEntitlement g (!(activeGrants s e.id).isEmpty) now x else x := by
      refine hte.trans (map_congr_left fun x hx => ?_)
      by_cases hxe : x.id = e.id
      · have hp : (s.grants.exist fun g => appliableGrant s orderItemId req g && g.entitlementId == x.id) = true :=
          exist_iff.mpr ⟨g, hg, by simp [hga, hxe, heg]⟩
        have hprior : (s.grants.exist fun g => g.entitlementId == x.id && g.status == .active) =
            !(activeGrants s e.id).isEmpty := by rw [prior_iff, hxe]
        rw [if_pos hp, if_pos hxe, ← hsource]
        simp only [stackedEntitlement, grantOf_eq hg, hprior, Option.bind_some]
      · have hp : ¬(s.grants.exist fun g => appliableGrant s orderItemId req g &&
            g.entitlementId == x.id) = true := by
          rw [exist_iff]
          rintro ⟨g', hg', hp⟩
          rw [Bool.and_eq_true, beq_iff_eq] at hp
          rw [grant_unique hg' hg ((appliableGrant_spec hp.1).1.trans hsource.symm)] at hp
          exact hxe (hp.2.symm.trans heg.symm)
        rw [if_neg hp, if_neg hxe]
    refine Or.inr ⟨g, e, hg, hpending, he, heg, htg.trans (map_congr_left fun x hx => ?_), hte'⟩
    by_cases hxg : x.id = g.id
    · have hxg' : x = g := eq_of_key hx hg hxg
      rw [if_pos hxg, if_pos]
      · rfl
      · have hrow : stackedEntitlement g (!(activeGrants s e.id).isEmpty) now e ∈ te.rows := by
          rw [hte']
          exact mem_map.mpr ⟨e, he, if_pos rfl⟩
        have hactive : te.exist (fun e => e.id == x.entitlementId && e.status == .active) = true :=
          exist_iff.mpr ⟨_, hrow, by simp [stackedEntitlement, hxg', heg]⟩
        rw [hxg'] at hactive ⊢
        simp only [hsource, hpending, hnew, beq_self_eq_true, Option.isNone_none, Bool.true_and]
        exact hactive
    · rw [if_neg hxg, if_neg]
      intro hp
      simp only [Bool.and_eq_true, beq_iff_eq] at hp
      exact hxg (congrArg EntitlementGrant.id (grant_unique hx hg (hp.1.1.1.trans hsource.symm)))
  · -- nothing can be applied, so the first statement touches no row
    have hs1 : s1 = s := update_miss h1 fun x hx => exist_false_iff.mpr fun g hg => by
      by_contra hp
      rw [Bool.not_eq_false, Bool.and_eq_true, beq_iff_eq] at hp
      exact happ ⟨g, hg, hp.1, x, hx, hp.2.symm⟩
    subst hs1
    refine Or.inl (update_miss h2 fun x hx => ?_)
    by_contra hp
    simp only [Bool.not_eq_false, Bool.and_eq_true, beq_iff_eq, Option.isNone_iff_eq_none, exist_iff] at hp
    obtain ⟨⟨⟨hsource, hpending⟩, hnew⟩, e, he, heid, hactive⟩ := hp
    rcases hguard x hx hsource hpending hnew with hxa | hinactive
    · exact happ ⟨x, hx, hxa, e, he, heid⟩
    · exact hinactive e he heid hactive

end Activation

/-! ## The limits after an activation -/

structure LimitsMatch (s : Db) (e : CustomerEntitlement) : Prop where
  usage : e.usageLimit = sumGranted (activeGrants s e.id) (·.usageGranted)
  access : e.accessLimit = sumGranted (activeGrants s e.id) (·.accessGranted)

def NotRevoked (s : Db) (e : CustomerEntitlement) : Prop :=
  activeGrants s e.id ≠ [] → e.status ≠ .revoked

def ExpiryMatches (s : Db) (e : CustomerEntitlement) : Prop :=
  e.expiresAt = rebuildExpiry (activeGrants s e.id)

def Dated (s : Db) : Prop := ∀ g ∈ s.grants.rows, g.status = .active → g.activatedAt.isSome = true

/-- Every active grant was activated by `now`. -/
def DatedBy (now : Time) (s : Db) : Prop :=
  ∀ g ∈ s.grants.rows, g.status = .active → ∃ t, g.activatedAt = some t ∧ t ≤ now

theorem DatedBy.dated {now : Time} (h : DatedBy now s) : Dated s := by
  intro g hg ha
  obtain ⟨t, ht, -⟩ := h g hg ha
  rw [ht]
  rfl

theorem DatedBy.mono {now : Time} (h : DatedBy now s) (hle : now ≤ later) : DatedBy later s := by
  intro g hg ha
  obtain ⟨t, ht, hnow⟩ := h g hg ha
  exact ⟨t, ht, Nat.le_trans hnow hle⟩

namespace Activated

variable {now : Time} {g : EntitlementGrant} {e : CustomerEntitlement} {s t : Db}

section

variable (h : Activated now g e s t)
include h

theorem active : (activeGrants t e.id).Perm (activeGrants s e.id ++ [activatedGrant now g]) := by
  obtain ⟨xs, ys, hrows, hmap⟩ := split_key h.grant
  have hgrants := h.grants.trans (hmap (activatedGrant now))
  refine (perm_insertionSort _ _).trans (List.Perm.trans ?_ ((perm_insertionSort _ _).symm.append_right _))
  rw [hgrants, hrows, filter_append, filter_append, filter_cons, filter_cons]
  simp only [activatedGrant, h.owner, h.pending, beq_self_eq_true, Bool.true_and, if_true,
    show (GrantStatus.pending == .active) = false from rfl, Bool.and_false, Bool.false_eq_true, if_false]
  refine perm_middle.trans ?_
  exact (perm_append_singleton _ _).symm

theorem active_other {id : Id} (hid : id ≠ e.id) : activeGrants t id = activeGrants s id := by
  obtain ⟨xs, ys, hrows, hmap⟩ := split_key h.grant
  have hgrants := h.grants.trans (hmap (activatedGrant now))
  unfold activeGrants
  rw [hgrants, hrows, filter_append, filter_append, filter_cons, filter_cons]
  have hne : (g.entitlementId == id) = false := by
    rw [beq_eq_false_iff_ne]
    exact fun heq => hid (heq.symm.trans h.owner.symm)
  simp only [activatedGrant, hne, Bool.false_and, Bool.false_eq_true, if_false]

theorem entitlement_cases {x : CustomerEntitlement} (hx : x ∈ t.entitlements.rows) :
    x = stackedEntitlement g (!(activeGrants s e.id).isEmpty) now e ∨ (x ∈ s.entitlements.rows ∧ x.id ≠ e.id) := by
  rw [h.entitlements] at hx
  obtain ⟨y, hy, rfl⟩ := mem_map.mp hx
  by_cases hye : y.id = e.id
  · rw [if_pos hye, eq_of_key hy h.entitlement hye]
    exact Or.inl rfl
  · rw [if_neg hye]
    exact Or.inr ⟨hy, hye⟩

theorem limits (hm : ∀ y ∈ s.entitlements.rows, LimitsMatch s y) : ∀ x ∈ t.entitlements.rows, LimitsMatch t x := by
  intro x hx
  rcases h.entitlement_cases hx with rfl | ⟨hold, hne⟩
  · have he := hm e h.entitlement
    constructor
    · show stackedLimit g.usageGranted _ e.usageLimit = sumGranted (activeGrants t e.id) _
      rw [sumGranted_perm h.active, sumGranted_concat, he.usage]
      rfl
    · show stackedLimit g.accessGranted _ e.accessLimit = sumGranted (activeGrants t e.id) _
      rw [sumGranted_perm h.active, sumGranted_concat, he.access]
      rfl
  · obtain ⟨hu, ha⟩ := hm x hold
    rw [← h.active_other hne] at hu ha
    exact ⟨hu, ha⟩

theorem notRevoked (hm : ∀ y ∈ s.entitlements.rows, NotRevoked s y) : ∀ x ∈ t.entitlements.rows, NotRevoked t x := by
  intro x hx hne
  rcases h.entitlement_cases hx with rfl | ⟨hold, hid⟩
  · simp [stackedEntitlement]
  · rw [h.active_other hid] at hne
    exact hm x hold hne

theorem datedBy (hd : DatedBy now s) : DatedBy now t := by
  intro x hx ha
  rw [h.grants] at hx
  obtain ⟨y, hy, rfl⟩ := mem_map.mp hx
  by_cases hyg : y.id = g.id
  · rw [if_pos hyg]
    exact ⟨now, rfl, Nat.le_refl _⟩
  · rw [if_neg hyg] at ha ⊢
    exact hd y hy ha

theorem dated (hd : Dated s) : Dated t := by
  intro x hx ha
  rw [h.grants] at hx
  obtain ⟨y, hy, rfl⟩ := mem_map.mp hx
  by_cases hyg : y.id = g.id
  · rw [if_pos hyg]
    rfl
  · rw [if_neg hyg] at ha ⊢
    exact hd y hy ha

theorem expiry (hd : DatedBy now s) (hm : ∀ y ∈ s.entitlements.rows, ExpiryMatches s y) :
    ∀ x ∈ t.entitlements.rows, ExpiryMatches t x := by
  intro x hx
  rcases h.entitlement_cases hx with rfl | ⟨hold, hne⟩
  · have he : e.expiresAt = rebuildExpiry (activeGrants s e.id) := hm e h.entitlement
    show stackedExpiry g.durationMs _ e.expiresAt now = rebuildExpiry (activeGrants t e.id)
    have hsorted : (activeGrants s e.id ++ [activatedGrant now g]).Pairwise fun a b => grantTime a ≤ grantTime b := by
      rw [pairwise_append]
      refine ⟨grantOrder_sorted _, pairwise_singleton _ _, fun a ha b hb => ?_⟩
      obtain ⟨hmem, -, hactive⟩ := mem_activeGrants.mp ha
      obtain ⟨time, htime, hle⟩ := hd a hmem hactive
      rw [mem_singleton.mp hb]
      unfold grantTime
      rw [htime]
      exact hle
    rw [rebuildExpiry_perm h.active (grantOrder_sorted _) hsorted, rebuildExpiry_concat rfl, he]
    rfl
  · have hx' : x.expiresAt = rebuildExpiry (activeGrants s x.id) := hm x hold
    unfold ExpiryMatches
    rw [h.active_other hne]
    exact hx'

end

end Activated

/-! ## What a refund does -/

/-- What a refund has read of an entitlement: the row, and the active grants of other orders. -/
structure EntitlementRead where
  entitlementId : Id
  entitlement : Option CustomerEntitlement
  active : List EntitlementGrant

/-- The entitlements with a grant of the order that is pending or active. -/
def affectedEntitlements (s : Db) (orderId : Id) : List Id :=
  ((s.grants.rows.filter fun g => s.itemOf orderId g.sourceOrderItemId &&
    (g.status == .pending || g.status == .active)).map (·.entitlementId)).dedup

def readEntitlement (s : Db) (orderId entitlementId : Id) : EntitlementRead :=
  ⟨entitlementId, s.entitlements.get? entitlementId, otherActiveGrants s entitlementId orderId⟩

section Reads

variable {ℓ : Type}

def readEntitlements (orderId : Id) : List Id → Call ℓ (List EntitlementRead)
  | [] => pure []
  | e :: es => do
    let entitlement ← Prog.query fun s => s.entitlements.get? e
    let active ← Prog.query fun s => otherActiveGrants s e orderId
    let rest ← readEntitlements orderId es
    return ⟨e, entitlement, active⟩ :: rest

/-- The reads of `refundEntitlementGrantStatements`. -/
def refundReads (orderId : Id) : Call ℓ (List EntitlementRead) := do
  let affected ← Prog.query fun s => affectedEntitlements s orderId
  readEntitlements orderId affected

/-- The statement that rewrites an entitlement from what was read of it. -/
def rebuildStatement (now : Time) (guard : Option RefundGuard) (r : EntitlementRead) : Stmt Db :=
  update Db.entitlementsT (fun s e => e.id == r.entitlementId && RefundGuard.holds guard now s)
    (fun _ e => rebuiltEntitlement r.active ((r.entitlement.map (·.usageCount)).getD 0)
      ((r.entitlement.map (·.accessCount)).getD 0) now e)

/-- The statements of `refundEntitlementGrantStatements`, from its reads. -/
def refundStatements (orderId : Id) (now : Time) (guard : Option RefundGuard)
    (reads : List EntitlementRead) : List (Stmt Db) :=
  update Db.grantsT (fun s g => s.itemOf orderId g.sourceOrderItemId &&
        (g.status == .pending || g.status == .active) && RefundGuard.holds guard now s)
      (fun _ g => { g with status := .refunded }) :: reads.map (rebuildStatement now guard)

theorem refundEntitlementStatements_eq (orderId : Id) (now : Time) (guard : Option RefundGuard)
    (es : List Id) : refundEntitlementStatements (ℓ := ℓ) orderId now guard es =
      (readEntitlements orderId es >>= fun reads => pure (reads.map (rebuildStatement now guard))) := by
  induction es with
  | nil => rfl
  | cons e es ih =>
    unfold refundEntitlementStatements readEntitlements
    rw [ih]
    simp only [refundEntitlementStatement, bind_assoc]
    rfl

theorem refundEntitlementGrantStatements_eq (orderId : Id) (now : Time) (guard : Option RefundGuard) :
    refundEntitlementGrantStatements (ℓ := ℓ) orderId now guard =
      (refundReads orderId >>= fun reads => pure (refundStatements orderId now guard reads)) := by
  unfold refundEntitlementGrantStatements refundReads
  simp only [refundEntitlementStatements_eq, bind_assoc]
  rfl

theorem readEntitlements_alone (orderId : Id) (es : List Id) (s : Db) :
    (readEntitlements (ℓ := ℓ) orderId es).alone s = (.ok (es.map (readEntitlement s orderId)), s) := by
  induction es with
  | nil => rfl
  | cons e es ih => exact alone_bind (k := fun rest => pure (_ :: rest)) ih

theorem refundReads_alone (orderId : Id) (s : Db) : (refundReads (ℓ := ℓ) orderId).alone s =
    (.ok ((affectedEntitlements s orderId).map (readEntitlement s orderId)), s) :=
  readEntitlements_alone orderId _ s

theorem refundReads_reads (orderId : Id) :
    Reads (fun _ => True) (refundReads orderId : Call ℓ (List EntitlementRead)) := by
  refine (reads_query _).bind fun affected _ => ?_
  induction affected with
  | nil => trivial
  | cons e es ih =>
    exact (reads_query _).bind fun _ _ => (reads_query _).bind fun _ _ => ih.bind fun _ _ => trivial

end Reads

/-- The condition: what a refund has read still stands when its batch runs. -/
def readsCurrent (orderId : Id) (reads : List EntitlementRead) (s : Db) : Prop :=
  (∀ e ∈ affectedEntitlements s orderId, e ∈ reads.map (·.entitlementId)) ∧
    ∀ r ∈ reads, r.active = otherActiveGrants s r.entitlementId orderId

instance (orderId : Id) (reads : List EntitlementRead) (s : Db) :
    Decidable (readsCurrent orderId reads s) := inferInstanceAs (Decidable (_ ∧ _))

structure Rebuilt (active : List EntitlementGrant) (e : CustomerEntitlement) : Prop where
  usage : e.usageLimit = sumGranted active (·.usageGranted)
  access : e.accessLimit = sumGranted active (·.accessGranted)
  expiry : e.expiresAt = rebuildExpiry active
  kept : active ≠ [] → e.status ≠ .revoked

/-- A refund has taken the grants of the order out, and rewritten the entitlements it affects. -/
structure Refunded (orderId : Id) (s t : Db) : Prop where
  grants : t.grants.rows = s.grants.rows.map fun g =>
    if s.itemOf orderId g.sourceOrderItemId && (g.status == .pending || g.status == .active) then
      { g with status := .refunded } else g
  entitlements : ∀ x ∈ t.entitlements.rows,
    Rebuilt (otherActiveGrants s x.id orderId) x ∨
      (x ∈ s.entitlements.rows ∧ x.id ∉ affectedEntitlements s orderId)

theorem rebuiltEntitlement_rebuilt (active : List EntitlementGrant) (u a : Nat) (now : Time)
    (e : CustomerEntitlement) : Rebuilt active (rebuiltEntitlement active u a now e) := by
  refine ⟨rfl, rfl, rfl, fun hne => ?_⟩
  have hempty : active.isEmpty = false := by simpa using hne
  unfold rebuiltEntitlement
  dsimp only
  rw [hempty]
  split
  · next h => cases h
  · split
    · simp
    · split <;> simp

variable {reads : List EntitlementRead}

theorem rebuildStatements_ok {now : Time} {v : Id → List EntitlementGrant}
    (hguard : RefundGuard.holds guard now s = true) (hreads : ∀ r ∈ reads, r.active = v r.entitlementId)
    (hb : batch (reads.map (rebuildStatement now guard)) c s = .ok (ns, t)) :
    t.grants = s.grants ∧ ∀ x ∈ t.entitlements.rows, Rebuilt (v x.id) x ∨
      (x ∈ s.entitlements.rows ∧ x.id ∉ reads.map (·.entitlementId)) := by
  induction reads generalizing c s ns with
  | nil =>
    simp only [map_nil, batch_nil, Except.ok.injEq, Prod.mk.injEq] at hb
    obtain ⟨-, rfl⟩ := hb
    exact ⟨rfl, fun x hx => Or.inr ⟨hx, not_mem_nil⟩⟩
  | cons r reads ih =>
    obtain ⟨n1, s1, ms1, h1, hb, -⟩ := batch_cons_ok hb
    obtain ⟨-, te, hte, rfl⟩ := update_ok h1
    have hguard' : RefundGuard.holds guard now (Db.entitlementsT.set s te) = true := by
      cases guard <;> exact hguard
    obtain ⟨hgr, hents⟩ := ih hguard' (fun r' hr' => hreads r' (mem_cons_of_mem _ hr')) hb
    refine ⟨hgr, fun x hx => ?_⟩
    rcases hents x hx with hnew | ⟨hmem, hnot⟩
    · exact Or.inl hnew
    · have hmem' : x ∈ te.rows := hmem
      rw [hte] at hmem'
      obtain ⟨y, hy, rfl⟩ := mem_map.mp hmem'
      by_cases hyr : y.id = r.entitlementId
      · have hp : (y.id == r.entitlementId && RefundGuard.holds guard now s) = true := by
          rw [hguard, hyr, beq_self_eq_true, Bool.and_self]
        rw [if_pos hp]
        refine Or.inl ?_
        have hid : (rebuiltEntitlement r.active ((r.entitlement.map (·.usageCount)).getD 0)
            ((r.entitlement.map (·.accessCount)).getD 0) now y).id = r.entitlementId := hyr
        rw [hid, ← hreads r mem_cons_self]
        exact rebuiltEntitlement_rebuilt _ _ _ _ _
      · have hp : ¬(y.id == r.entitlementId && RefundGuard.holds guard now s) = true := by
          rw [Bool.and_eq_true, beq_iff_eq]
          exact fun h => hyr h.1
        rw [if_neg hp] at hnot ⊢
        refine Or.inr ⟨hy, fun hin => ?_⟩
        rcases mem_cons.mp hin with heq | hin
        · exact hyr heq
        · exact hnot hin

theorem refund_unguarded {now : Time} (hguard : RefundGuard.holds guard now s = false)
    (hbatch : batch (refundStatements orderId now guard reads) 0 s = .ok (ns, t)) : t = s := by
  obtain ⟨n1, s1, ms1, h1, hb, -⟩ := batch_cons_ok hbatch
  have hs1 : s1 = s := update_miss h1 fun g _ => by rw [hguard, Bool.and_false]
  subst hs1
  -- no other statement finds its guard met either
  have hmiss : RefundGuard.holds guard now s1 = false → t = s1 := by
    refine batch_within (R := fun a b => RefundGuard.holds guard now a = false → b = a)
      (fun _ _ => rfl) (fun a b d hab hbd ha => ?_) (fun st hst => ?_) hb
    · rw [hab ha] at hbd
      exact hbd ha
    · obtain ⟨r, -, rfl⟩ := mem_map.mp hst
      intro c a n b hs ha
      exact update_miss hs fun e _ => by rw [ha, Bool.and_false]
  exact hmiss hguard

theorem refund_ok {now : Time} (hcurrent : RefundGuard.holds guard now s = true → readsCurrent orderId reads s)
    (hbatch : batch (refundStatements orderId now guard reads) 0 s = .ok (ns, t)) :
    t = s ∨ Refunded orderId s t := by
  obtain ⟨n1, s1, ms1, h1, hb, -⟩ := batch_cons_ok hbatch
  by_cases hguard : RefundGuard.holds guard now s = true
  · obtain ⟨haffected, hreads⟩ := hcurrent hguard
    obtain ⟨-, tg, htg, rfl⟩ := update_ok h1
    have hguard' : RefundGuard.holds guard now (Db.grantsT.set s tg) = true := by
      cases guard <;> exact hguard
    obtain ⟨hgr, hents⟩ := rebuildStatements_ok (v := fun e => otherActiveGrants s e orderId) hguard' hreads hb
    refine Or.inr ⟨?_, fun x hx => ?_⟩
    · rw [hgr]
      refine htg.trans (map_congr_left fun g _ => ?_)
      rw [hguard, Bool.and_true]
    · exact (hents x hx).imp_right fun ⟨hmem, hnot⟩ => ⟨hmem, fun hin => hnot (haffected _ hin)⟩
  · exact Or.inl (refund_unguarded (Bool.not_eq_true _ ▸ hguard) hbatch)

namespace Refunded

variable {orderId : Id} {s t : Db}

section

variable (h : Refunded orderId s t)
include h

theorem active_filter (id : Id) :
    (t.grants.rows.filter fun g => g.entitlementId == id && g.status == .active) =
      s.grants.rows.filter fun g => g.entitlementId == id && g.status == .active &&
        !s.itemOf orderId g.sourceOrderItemId := by
  rw [h.grants, filter_map]
  -- a row that is active afterwards is none that the refund has touched
  rw [filter_congr (q := fun g => g.entitlementId == id && g.status == .active &&
    !s.itemOf orderId g.sourceOrderItemId) fun g _ => by
      rw [Function.comp_apply]
      cases hitem : s.itemOf orderId g.sourceOrderItemId <;> cases hst : g.status <;> simp [hst]]
  refine (map_congr_left fun g hg => ?_).trans (map_id' _)
  rw [mem_filter, and_eq_true, not_eq_true'] at hg
  rw [if_neg (by simp [hg.2.2])]

theorem active (hd : Dated s) (id : Id) : activeGrants t id = otherActiveGrants s id orderId := by
  unfold activeGrants otherActiveGrants
  rw [h.active_filter id]
  refine Eq.symm (filter_eq_self.mpr fun g hg => ?_)
  rw [mem_insertionSort, mem_filter, and_eq_true, and_eq_true, beq_iff_eq, beq_iff_eq] at hg
  exact hd g hg.1 hg.2.1.2

theorem active_unaffected {id : Id} (hid : id ∉ affectedEntitlements s orderId) :
    activeGrants t id = activeGrants s id := by
  unfold activeGrants
  rw [h.active_filter id]
  refine congrArg _ (filter_congr fun g hg => ?_)
  cases hp : g.entitlementId == id && g.status == .active with
  | false => rfl
  | true =>
    rw [and_eq_true, beq_iff_eq, beq_iff_eq] at hp
    have hitem : s.itemOf orderId g.sourceOrderItemId = false := by
      by_contra hitem
      rw [not_eq_false] at hitem
      refine hid (mem_dedup.mpr (mem_map.mpr ⟨g, mem_filter.mpr ⟨hg, ?_⟩, hp.1⟩))
      simp [hitem, hp.2]
    rw [hitem]
    rfl

theorem dated (hd : Dated s) : Dated t := by
  intro x hx ha
  rw [h.grants] at hx
  obtain ⟨g, hg, rfl⟩ := mem_map.mp hx
  split at ha
  · cases ha
  · next hp =>
    rw [if_neg hp]
    exact hd g hg ha

theorem datedBy {now : Time} (hd : DatedBy now s) : DatedBy now t := by
  intro x hx ha
  rw [h.grants] at hx
  obtain ⟨g, hg, rfl⟩ := mem_map.mp hx
  split at ha
  · cases ha
  · next hp =>
    rw [if_neg hp]
    exact hd g hg ha

theorem limits (hd : Dated s) (hm : ∀ y ∈ s.entitlements.rows, LimitsMatch s y) :
    ∀ x ∈ t.entitlements.rows, LimitsMatch t x := by
  intro x hx
  rcases h.entitlements x hx with hnew | ⟨hold, hid⟩
  · constructor
    · rw [h.active hd, hnew.usage]
    · rw [h.active hd, hnew.access]
  · obtain ⟨hu, ha⟩ := hm x hold
    rw [← h.active_unaffected hid] at hu ha
    exact ⟨hu, ha⟩

theorem notRevoked (hd : Dated s) (hm : ∀ y ∈ s.entitlements.rows, NotRevoked s y) :
    ∀ x ∈ t.entitlements.rows, NotRevoked t x := by
  intro x hx hne
  rcases h.entitlements x hx with hnew | ⟨hold, hid⟩
  · rw [h.active hd] at hne
    exact hnew.kept hne
  · rw [h.active_unaffected hid] at hne
    exact hm x hold hne

theorem expiry (hd : Dated s) (hm : ∀ y ∈ s.entitlements.rows, ExpiryMatches s y) :
    ∀ x ∈ t.entitlements.rows, ExpiryMatches t x := by
  intro x hx
  unfold ExpiryMatches
  rcases h.entitlements x hx with hnew | ⟨hold, hid⟩
  · rw [h.active hd, hnew.expiry]
  · rw [h.active_unaffected hid]
    exact hm x hold

end

end Refunded

/-! ## The calls -/

/-- Where a batch of the ledger is committed from, with what the call holds there. -/
inductive LedgerSite where
  | activate (orderItemId : Id) (requireDownloadAsset : Bool)
  | refund (orderId : Id) (now : Time) (guard : Option RefundGuard) (reads : List EntitlementRead)

inductive LedgerCall where
  | activate (orderItemId : Id) (now : Time) (requireDownloadAsset : Bool)
  | refund (orderId : Id) (now : Time) (guard : Option RefundGuard)

def LedgerCall.now : LedgerCall → Time
  | .activate _ now _ => now
  | .refund _ now _ => now

def LedgerCall.code : LedgerCall → Call LedgerSite Unit
  | .activate orderItemId now requireDownloadAsset => do
    let _ ← Prog.commit (.activate orderItemId requireDownloadAsset)
      (activateEntitlementGrantStatements orderItemId now requireDownloadAsset)
  | .refund orderId now guard => do
    let reads ← refundReads orderId
    let _ ← Prog.commit (.refund orderId now guard reads) (refundStatements orderId now guard reads)

inductive LedgerStep (now : Time) (s t : Db) : Prop
  | idle (h : t = s)
  | activated (g : EntitlementGrant) (e : CustomerEntitlement) (h : Activated now g e s t)
  | refunded (orderId : Id) (h : Refunded orderId s t)

/-! ## One call after the other -/

def runCalls (calls : List LedgerCall) (s : Db) : Db :=
  calls.foldl (fun s c => (c.code.alone s).2) s

def LedgerCall.guarded (c : LedgerCall) (s : Db) : Prop :=
  match c with
  | .activate orderItemId _ requireDownloadAsset => activationGuarded orderItemId requireDownloadAsset s
  | .refund .. => True

instance (c : LedgerCall) (s : Db) : Decidable (c.guarded s) := by
  cases c <;> unfold LedgerCall.guarded <;> infer_instance

def GuardedCalls : List LedgerCall → Db → Prop
  | [], _ => True
  | c :: cs, s => c.guarded s ∧ GuardedCalls cs (c.code.alone s).2

instance decidableGuardedCalls : ∀ cs s, Decidable (GuardedCalls cs s)
  | [], _ => isTrue trivial
  | c :: cs, s =>
    have := decidableGuardedCalls cs (c.code.alone s).2
    inferInstanceAs (Decidable (c.guarded s ∧ _))

theorem commit_alone {ℓ : Type} (x : ℓ) (sts : List (Stmt Db)) (s : Db) :
    ((commit x sts >>= fun _ => pure () : Call ℓ Unit).alone s).2 = s ∨
      ∃ ns, batch sts 0 s = .ok (ns, ((commit x sts >>= fun _ => pure () : Call ℓ Unit).alone s).2) := by
  simp only [commit, act_bind, alone]
  cases hb : batch sts 0 s with
  | error a => exact Or.inl rfl
  | ok r => exact Or.inr ⟨r.1, rfl⟩

theorem readEntitlement_current (s : Db) (orderId : Id) :
    readsCurrent orderId ((affectedEntitlements s orderId).map (readEntitlement s orderId)) s := by
  constructor
  · intro e he
    rw [map_map]
    exact mem_map.mpr ⟨e, he, rfl⟩
  · intro r hr
    obtain ⟨e, -, rfl⟩ := mem_map.mp hr
    rfl

theorem LedgerCall.alone_step (c : LedgerCall) (hguard : c.guarded s) : LedgerStep c.now s (c.code.alone s).2 := by
  cases c with
  | activate orderItemId now req =>
    rcases commit_alone (LedgerSite.activate orderItemId req)
      (activateEntitlementGrantStatements orderItemId now req) s with hidle | ⟨ns, hb⟩
    · exact .idle hidle
    · rcases activation_ok hguard hb with hidle | ⟨g, e, h⟩
      · exact .idle hidle
      · exact .activated g e h
  | refund orderId now guard =>
    show LedgerStep now s ((refundReads orderId >>= _).alone s).2
    rw [alone_bind (refundReads_alone orderId s)]
    rcases commit_alone (LedgerSite.refund orderId now guard _) (refundStatements orderId now guard
        ((affectedEntitlements s orderId).map (readEntitlement s orderId))) s with hidle | ⟨ns, hb⟩
    · exact .idle hidle
    · rcases refund_ok (fun _ => readEntitlement_current s orderId) hb with hidle | h
      · exact .idle hidle
      · exact .refunded orderId h

structure ReplayInv (now : Time) (s : Db) : Prop where
  limits : ∀ e ∈ s.entitlements.rows, LimitsMatch s e
  expiry : ∀ e ∈ s.entitlements.rows, ExpiryMatches s e
  dated : DatedBy now s

theorem ReplayInv.step {now : Time} (h : ReplayInv now s) (hle : now ≤ later) (hstep : LedgerStep later s t) :
    ReplayInv later t := by
  have hd := h.dated.mono hle
  cases hstep with
  | idle ht => exact ht ▸ ⟨h.limits, h.expiry, hd⟩
  | activated g e ha => exact ⟨ha.limits h.limits, ha.expiry hd h.expiry, ha.datedBy hd⟩
  | refunded orderId hr =>
    exact ⟨hr.limits hd.dated h.limits, hr.expiry hd.dated h.expiry, hr.datedBy hd⟩

/-- After every run of activations and refunds at times that do not decrease, an entitlement has the
expiry and the limits of its active grants. -/
theorem ledger_equals_replay {calls : List LedgerCall} {start : Time} {s : Db}
    (h0 : ReplayInv start s) (htimes : (start :: calls.map LedgerCall.now).Pairwise (· ≤ ·))
    (hguard : GuardedCalls calls s) :
    ∀ e ∈ (runCalls calls s).entitlements.rows, e.expiresAt = rebuildExpiry (activeGrants (runCalls calls s) e.id) ∧
      e.usageLimit = sumGranted (activeGrants (runCalls calls s) e.id) (·.usageGranted) ∧
      e.accessLimit = sumGranted (activeGrants (runCalls calls s) e.id) (·.accessGranted) := by
  induction calls generalizing start s with
  | nil => exact fun e he => ⟨h0.expiry e he, (h0.limits e he).usage, (h0.limits e he).access⟩
  | cons c calls ih =>
    rw [map_cons, pairwise_cons, pairwise_cons] at htimes
    obtain ⟨hstart, hnow, hrest⟩ := htimes
    refine ih (h0.step (hstart _ mem_cons_self) (c.alone_step hguard.1))
      ?_ hguard.2
    rw [pairwise_cons]
    exact ⟨hnow, hrest⟩

/-! ## Two runs -/

def twoGrantsDb : Db where
  items := .of [{ id := 1, orderId := 1, sellableItemId := 7, deliveryComponentId := 7
                  deliveryComponentType := .download, quantity := 1 },
    { id := 2, orderId := 2, sellableItemId := 7, deliveryComponentId := 7
      deliveryComponentType := .download, quantity := 1 }]
  entitlements := .of [{ id := 5, userId := some 1, orderItemId := 1, sellableItemId := 7, status := .pending }]
  grants := .of [{ id := 1, entitlementId := 5, sourceOrderItemId := 1, status := .pending
                   durationMs := some 10, usageGranted := some 5 },
    { id := 2, entitlementId := 5, sourceOrderItemId := 2, status := .pending
      durationMs := some 10, usageGranted := some 3, accessGranted := some 2 }]

theorem twoGrantsDb_inv : ReplayInv 0 twoGrantsDb where
  limits := fun e he => by
    rw [mem_singleton.mp (show e ∈ [_] from he)]
    exact ⟨by decide, by decide⟩
  expiry := fun e he => by
    rw [mem_singleton.mp (show e ∈ [_] from he)]
    show (none : Option Time) = rebuildExpiry (activeGrants twoGrantsDb 5)
    decide
  dated := fun g hg ha => by
    rcases mem_pair.mp (show g ∈ [_, _] from hg) with rfl | rfl <;> cases ha

/-- The second grant is activated after the first has run out, and the first order is refunded. -/
def refundedFirstCalls : List LedgerCall :=
  [.activate 1 100 false, .activate 2 120 false, .refund 1 125 none]

def missingDownloadCalls : List LedgerCall := [.activate 1 100 false, .activate 2 105 true]

theorem ledger_equals_replay_refundedFirst : ((runCalls refundedFirstCalls twoGrantsDb).entitlements.rows.map fun e =>
      (e.expiresAt, e.usageLimit, e.accessLimit)) = [(some 130, some 3, some 2)] ∧
    ∀ e ∈ (runCalls refundedFirstCalls twoGrantsDb).entitlements.rows,
      e.expiresAt = rebuildExpiry (activeGrants (runCalls refundedFirstCalls twoGrantsDb) e.id) ∧
      e.usageLimit = sumGranted (activeGrants (runCalls refundedFirstCalls twoGrantsDb) e.id) (·.usageGranted) ∧
      e.accessLimit = sumGranted (activeGrants (runCalls refundedFirstCalls twoGrantsDb) e.id) (·.accessGranted) :=
  ⟨by decide, ledger_equals_replay twoGrantsDb_inv (by decide) (by decide)⟩

/-- The second grant is active, and its usage is not in the limit. -/
theorem not_ledger_equals_replay :
    ¬∀ start s calls, ReplayInv start s → (start :: calls.map LedgerCall.now).Pairwise (· ≤ ·) →
      ∀ e ∈ (runCalls calls s).entitlements.rows,
        e.usageLimit = sumGranted (activeGrants (runCalls calls s) e.id) (·.usageGranted) := by
  intro h
  have hreplay := h 0 twoGrantsDb missingDownloadCalls twoGrantsDb_inv (by decide)
  have hrow : ∃ e ∈ (runCalls missingDownloadCalls twoGrantsDb).entitlements.rows, e.usageLimit = some 5 ∧ sumGranted
        (activeGrants (runCalls missingDownloadCalls twoGrantsDb) e.id) (·.usageGranted) = some 8 := by
    decide
  obtain ⟨e, he, hlimit, hsum⟩ := hrow
  have heq := hreplay e he
  rw [hlimit, hsum] at heq
  cases heq

end Gmshop
