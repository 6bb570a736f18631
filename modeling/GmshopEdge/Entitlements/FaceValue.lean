import GmshopEdge.Builds.Dispatch
import GmshopEdge.Entitlements.AccessUse
import GmshopEdge.Entitlements.Replay

/-!
# The face value of a grant

An activation adds its grant to the limits, or sets them where the entitlement has no other active grant. The counts
of what was used stay. So a grant is worth its face value where the counts are within the limits, and zero where no
grant is active (`stackedLimit_worth`), which a refund can break: it takes limits away, and no counts.

The history is that of the entitlements: grants, uses of the access and of builds, refunds and expiries, one after the
other.
-/

namespace Gmshop

open List Sql Stmt

/-! ## Histories -/

/-- One step on the entitlements: a paid item, an activation or a refund, a use of the access, a build, one that takes
a restored use back, the use that a cancelled build restores, the expiry. -/
inductive HistoryStep where
  | create (orderId : Id) (item : ShopOrderItem) (now : Time) (entitlementId grantId : Id)
  | ledger (c : LedgerCall)
  | useAccess (entitlementId : Id) (now : Time)
  | useBuild (entitlementId : Id) (now : Time)
  | reuseBuild (entitlementId : Id) (now : Time)
  | restoreBuild (entitlementId : Id) (now : Time)
  | expire (now : Time)

def commitAlone (sts : List (Stmt Db)) (s : Db) : Db :=
  match batch sts 0 s with
  | .ok (_, t) => t
  | .error _ => s

/-- The statement of `consumeEntitlementAccess` on the entitlement. -/
def useAccessStatement (entitlementId : Id) (now : Time) : Stmt Db :=
  update Db.entitlementsT (fun _ e => e.id == entitlementId && e.usable now) fun _ e => e.use

/-- What `createBuildStatements` do to the entitlement: they insert the job where it is buildable, and count it. -/
def useBuildStatement (entitlementId : Id) (now : Time) : Stmt Db :=
  update Db.entitlementsT (fun _ e => e.id == entitlementId && e.buildable now) fun _ e => e.consume .active

/-- The statement of `cancelBuildStatements` on the entitlement. -/
def restoreBuildStatement (entitlementId : Id) (now : Time) : Stmt Db :=
  update Db.entitlementsT (fun _ e => e.id == entitlementId && decide (0 < e.usageCount)) fun _ e => e.restore now

def HistoryStep.run : HistoryStep → Db → Db
  | .create orderId item now entitlementId grantId, s =>
    match createEntitlementGrantStatements orderId item now entitlementId grantId with
    | .ok sts => commitAlone sts s
    | .error _ => s
  | .ledger c, s => (c.code.alone s).2
  | .useAccess entitlementId now, s => commitAlone [useAccessStatement entitlementId now] s
  | .useBuild entitlementId now, s => commitAlone [useBuildStatement entitlementId now] s
  | .reuseBuild entitlementId now, s => commitAlone [reconsumeStatement entitlementId now] s
  | .restoreBuild entitlementId now, s => commitAlone [restoreBuildStatement entitlementId now] s
  | .expire now, s => commitAlone (maintenanceStatements now) s

def runHistory (history : List HistoryStep) (s : Db) : Db := history.foldl (fun s step => step.run s) s

/-! ## The property -/

/-- After the step, a grant of the item that it has activated leaves what it grants. -/
def Worth (orderItemId : Id) (s t : Db) : Prop :=
  ∀ g ∈ s.grants.rows, g.sourceOrderItemId = orderItemId → g.status = .pending →
    (∃ g' ∈ t.grants.rows, g'.id = g.id ∧ g'.status = .active) → ∀ e ∈ t.entitlements.rows, e.id = g.entitlementId →
        (∀ l ∈ e.accessLimit, ∀ a ∈ g.accessGranted, e.accessCount + a ≤ l) ∧
          ∀ l ∈ e.usageLimit, ∀ u ∈ g.usageGranted, e.usageCount + u ≤ l

structure CounterCovered (active : List EntitlementGrant) (limit : Option Nat) (count : Nat) : Prop where
  within : ∀ l ∈ limit, count ≤ l
  unused : active = [] → count = 0

def RefundCovers (orderId : Id) (s : Db) : Prop :=
  ∀ e ∈ s.entitlements.rows, e.id ∈ affectedEntitlements s orderId →
    let active := otherActiveGrants s e.id orderId
    CounterCovered active (sumGranted active (·.usageGranted)) e.usageCount ∧
      CounterCovered active (sumGranted active (·.accessGranted)) e.accessCount

def HistoryStep.covered : HistoryStep → Db → Prop
  | .ledger (.activate orderItemId _ requireDownloadAsset), s => activationGuarded orderItemId requireDownloadAsset s
  | .ledger (.refund orderId _ _), s => RefundCovers orderId s
  | _, _ => True

def CoveredHistory : List HistoryStep → Db → Prop
  | [], _ => True
  | step :: history, s => step.covered s ∧ CoveredHistory history (step.run s)

/-! ## One activation -/

variable {granted limit : Option Nat} {c count : Nat} {active : List EntitlementGrant} {s t : Db}
  {sts : List (Stmt Db)} {e : CustomerEntitlement} {now : Time} {orderId : Id} {g : EntitlementGrant}
  {ns : List Nat} {guard : Option RefundGuard}

theorem stackedLimit_worth {a : Nat} {prior : Bool} : (∀ l ∈ stackedLimit (some a) prior limit, count + a ≤ l) ↔
      if prior then ∀ l ∈ limit, count ≤ l else count = 0 := by
  cases prior with
  | false =>
    show (∀ l ∈ some a, count + a ≤ l) ↔ count = 0
    constructor
    · intro h
      have := h a rfl
      omega
    · rintro rfl l ⟨⟩
      omega
  | true =>
    show (∀ l ∈ limit.map (· + a), count + a ≤ l) ↔ ∀ l ∈ limit, count ≤ l
    constructor
    · intro h l hl
      have := h (l + a) (Option.mem_map_of_mem _ hl)
      omega
    · intro h l hl
      obtain ⟨m, hm, rfl⟩ := Option.mem_map.mp hl
      have := h m hm
      omega

theorem CounterCovered.stacked (h : CounterCovered active limit count) :
    ∀ l ∈ stackedLimit granted (!active.isEmpty) limit, ∀ a ∈ granted, count + a ≤ l := by
  intro l hl a ha
  obtain rfl : granted = some a := ha
  refine (stackedLimit_worth).mpr ?_ l hl
  cases active with
  | nil => exact h.unused rfl
  | cons x xs => exact h.within

theorem CounterCovered.activated {after : List EntitlementGrant} (h : CounterCovered active limit count)
    (hafter : after ≠ []) : CounterCovered after (stackedLimit granted (!active.isEmpty) limit) count := by
  refine ⟨fun l hl => ?_, fun hnil => absurd hnil hafter⟩
  cases granted with
  | none => cases hl
  | some a =>
    have := h.stacked l hl a rfl
    omega

/-! ## The invariant -/

structure Covered (active : List EntitlementGrant) (e : CustomerEntitlement) : Prop where
  usage : CounterCovered active e.usageLimit e.usageCount
  access : CounterCovered active e.accessLimit e.accessCount
  granted : e.status = .active ∨ e.status = .exhausted → active ≠ []

structure FaceInv (s : Db) : Prop where
  covered : ∀ e ∈ s.entitlements.rows, Covered (activeGrants s e.id) e
  dated : Dated s

theorem CounterCovered.use (hactive : active ≠ []) (hleft : ∀ l ∈ limit, count < l) :
    CounterCovered active limit (count + 1) :=
  ⟨fun l hl => hleft l hl, fun h => absurd h hactive⟩

theorem update_inv {p : CustomerEntitlement → Bool} {f : CustomerEntitlement → CustomerEntitlement} {n : Nat}
    (hs : FaceInv s) (hid : ∀ e, (f e).id = e.id)
    (hf : ∀ e active, p e = true → Covered active e → Covered active (f e))
    (h : update Db.entitlementsT (fun _ e => p e) (fun _ e => f e) c s = .ok (n, t)) : FaceInv t := by
  obtain ⟨-, rows, hrows, rfl⟩ := update_ok h
  refine ⟨fun e he => ?_, hs.dated⟩
  obtain ⟨x, hx, rfl⟩ := mem_map.mp (hrows ▸ he)
  split
  · rename_i hp
    rw [hid]
    exact hf x _ hp (hs.covered x hx)
  · exact hs.covered x hx

theorem commitAlone_inv (hs : FaceInv s) (h : ∀ ns t, batch sts 0 s = .ok (ns, t) → FaceInv t) :
    FaceInv (commitAlone sts s) := by
  unfold commitAlone
  split
  · rename_i r hb
    exact h _ _ hb
  · exact hs

/-! ## The steps -/

theorem buildable_iff : e.buildable now = true ↔
    (e.status = .active ∨ e.status = .exhausted) ∧ (∀ t ∈ e.expiresAt, now < t) ∧ ∀ l ∈ e.usageLimit, e.usageCount < l := by
  unfold CustomerEntitlement.buildable
  rw [Bool.and_eq_true, Bool.and_eq_true, Bool.or_eq_true, beq_iff_eq, beq_iff_eq, Option.all_eq_true,
    Option.all_eq_true, and_assoc]
  simp only [decide_eq_true_eq]
  exact Iff.rfl

theorem Covered.useAccess (h : Covered active e) (husable : e.usable now = true) : Covered active e.use := by
  obtain ⟨hopen, -, hleft⟩ := usable_iff.mp husable
  have hactive := h.granted hopen
  exact ⟨h.usage, .use hactive hleft, fun _ => hactive⟩

theorem Covered.useBuild (otherwise : EntitlementStatus) (h : Covered active e)
    (hopen : e.status = .active ∨ e.status = .exhausted) (hleft : ∀ l ∈ e.usageLimit, e.usageCount < l) :
    Covered active (e.consume otherwise) := by
  have hactive := h.granted hopen
  exact ⟨.use hactive hleft, h.access, fun _ => hactive⟩

theorem Covered.restore (now : Time) (h : Covered active e) : Covered active (e.restore now) := by
  refine ⟨⟨fun l hl => ?_, fun hnil => ?_⟩, h.access, fun hopen => h.granted ?_⟩
  · exact Nat.le_trans (Nat.sub_le _ _) (h.usage.within l hl)
  · show e.usageCount - 1 = 0
    rw [h.usage.unused hnil]
  · have hopen : (if _ then EntitlementStatus.active else e.status) = .active ∨
        (if _ then EntitlementStatus.active else e.status) = .exhausted := hopen
    split at hopen
    · rename_i hcond
      exact .inr hcond.1
    · exact hopen

theorem useAccess_inv (hs : FaceInv s) (entitlementId : Id) (now : Time) :
    FaceInv ((HistoryStep.useAccess entitlementId now).run s) := by
  refine commitAlone_inv hs fun ns t hb => ?_
  obtain ⟨n, hupdate, -⟩ := batch_single_ok hb
  refine update_inv (f := fun e => e.use) hs (fun _ => rfl) (fun e active hp h => ?_) hupdate
  rw [Bool.and_eq_true] at hp
  exact h.useAccess hp.2

theorem useBuild_inv (hs : FaceInv s) (entitlementId : Id) (now : Time) :
    FaceInv ((HistoryStep.useBuild entitlementId now).run s) := by
  refine commitAlone_inv hs fun ns t hb => ?_
  obtain ⟨n, hupdate, -⟩ := batch_single_ok hb
  refine update_inv (f := fun e => e.consume .active) hs (fun _ => rfl) (fun e active hp h => ?_) hupdate
  rw [Bool.and_eq_true] at hp
  obtain ⟨hopen, -, hleft⟩ := (buildable_iff).mp hp.2
  exact h.useBuild .active hopen hleft

theorem reuseBuild_inv (hs : FaceInv s) (entitlementId : Id) (now : Time) :
    FaceInv ((HistoryStep.reuseBuild entitlementId now).run s) := by
  refine commitAlone_inv hs fun ns t hb => ?_
  obtain ⟨n, hupdate, -⟩ := batch_single_ok hb
  refine update_inv (f := fun e => e.consume e.status) hs (fun _ => rfl) (fun e active hp h => ?_) hupdate
  rw [Bool.and_eq_true, CustomerEntitlement.reconsumable, Bool.and_eq_true, Bool.and_eq_true, Option.all_eq_true,
    Option.all_eq_true] at hp
  obtain ⟨-, ⟨hactive, -⟩, hleft⟩ := hp
  exact h.useBuild e.status (.inl (eq_of_beq hactive)) fun l hl => of_decide_eq_true (hleft l hl)

theorem restoreBuild_inv (hs : FaceInv s) (entitlementId : Id) (now : Time) :
    FaceInv ((HistoryStep.restoreBuild entitlementId now).run s) := by
  refine commitAlone_inv hs fun ns t hb => ?_
  obtain ⟨n, hupdate, -⟩ := batch_single_ok hb
  exact update_inv (f := fun e => e.restore now) hs (fun _ => rfl) (fun e active _ h => h.restore now) hupdate

theorem expire_inv (hs : FaceInv s) (now : Time) : FaceInv ((HistoryStep.expire now).run s) := by
  refine commitAlone_inv hs fun ns t hb => ?_
  obtain ⟨n, s1, ns', hexpire, hrest, -⟩ := batch_cons_ok hb
  obtain ⟨n', hjobs, -⟩ := batch_single_ok hrest
  have hs1 := update_inv (f := fun e => { e with status := .expired }) hs (fun _ => rfl) (fun e active _ h => by
    refine ⟨h.usage, h.access, ?_⟩
    rintro (h | h) <;> cases h) hexpire
  obtain ⟨-, jobs, -, rfl⟩ := update_ok hjobs
  exact ⟨hs1.covered, hs1.dated⟩

def Added (s t : Db) : Prop :=
  (∃ es : List CustomerEntitlement, t.entitlements.rows = s.entitlements.rows ++ es ∧
    ∀ e ∈ es, e.status = .pending ∧ e.usageLimit = none ∧ e.accessLimit = none ∧ e.usageCount = 0 ∧ e.accessCount = 0) ∧
  ∃ gs : List EntitlementGrant, t.grants.rows = s.grants.rows ++ gs ∧ ∀ g ∈ gs, g.status = .pending

theorem Added.refl (s : Db) : Added s s :=
  ⟨⟨[], (append_nil _).symm, nofun⟩, [], (append_nil _).symm, nofun⟩

theorem Added.trans (s t u : Db) (h : Added s t) (h' : Added t u) : Added s u := by
  obtain ⟨⟨es, hes, hnew⟩, gs, hgs, hpending⟩ := h
  obtain ⟨⟨es', hes', hnew'⟩, gs', hgs', hpending'⟩ := h'
  refine ⟨⟨es ++ es', ?_, fun e he => ?_⟩, gs ++ gs', ?_, fun g hg => ?_⟩
  · rw [hes', hes, append_assoc]
  · exact (mem_append.mp he).elim (hnew e) (hnew' e)
  · rw [hgs', hgs, append_assoc]
  · exact (mem_append.mp hg).elim (hpending g) (hpending' g)

theorem Added.inv (hs : FaceInv s) (h : Added s t) : FaceInv t := by
  obtain ⟨⟨es, hes, hnew⟩, gs, hgs, hpending⟩ := h
  have hactive : ∀ id, activeGrants t id = activeGrants s id := by
    intro id
    have hnone : gs.filter (fun g => g.entitlementId == id && g.status == .active) = [] := by
      refine filter_eq_nil_iff.mpr fun g hg h => ?_
      rw [hpending g hg, Bool.and_eq_true] at h
      cases h.2
    unfold activeGrants
    rw [hgs, filter_append, hnone, append_nil]
  refine ⟨fun e he => ?_, fun g hg hstatus => ?_⟩
  · rw [hactive]
    rw [hes] at he
    rcases mem_append.mp he with he | he
    · exact hs.covered e he
    · obtain ⟨hstatus, husage, haccess, hused, haccessed⟩ := hnew e he
      refine ⟨⟨fun l hl => ?_, fun _ => hused⟩, ⟨fun l hl => ?_, fun _ => haccessed⟩, ?_⟩
      · rw [husage] at hl
        cases hl
      · rw [haccess] at hl
        cases hl
      · rw [hstatus]
        rintro (h | h) <;> cases h
  · rw [hgs] at hg
    rcases mem_append.mp hg with hg | hg
    · exact hs.dated g hg hstatus
    · rw [hpending g hg] at hstatus
      cases hstatus

theorem create_added {item : ShopOrderItem} {entitlementId grantId : Id}
    (h : createEntitlementGrantStatements orderId item now entitlementId grantId = .ok sts) :
    ∀ st ∈ sts, Within Added st := by
  unfold createEntitlementGrantStatements at h
  cases hu : multipliedLimit item.usageLimit item.quantity with
  | error a => simp [hu, bind, Except.bind] at h
  | ok u =>
    cases ha : multipliedLimit item.accessLimit item.quantity with
    | error a => simp [hu, ha, bind, Except.bind] at h
    | ok a =>
      simp only [hu, ha, bind, Except.bind, pure, Except.pure, Except.ok.injEq] at h
      subst h
      intro st hst c s n t hrun
      rcases mem_append.mp hst with hst | hst
      · split at hst
        · rw [mem_singleton.mp hst] at hrun
          obtain ⟨-, entitlements, hrows, rfl⟩ := insert_abort_ok hrun
          refine ⟨⟨_, hrows, fun e he => ?_⟩, [], (append_nil _).symm, nofun⟩
          obtain ⟨o, -, rfl⟩ := mem_map.mp he
          exact ⟨rfl, rfl, rfl, rfl, rfl⟩
        · cases hst
      · rw [mem_singleton.mp hst] at hrun
        obtain ⟨-, grants, hrows, rfl⟩ := insert_abort_ok hrun
        refine ⟨⟨[], (append_nil _).symm, nofun⟩, _, hrows, fun g hg => ?_⟩
        obtain ⟨o, -, rfl⟩ := mem_map.mp hg
        rfl

theorem create_inv (hs : FaceInv s) (orderId : Id) (item : ShopOrderItem) (now : Time)
    (entitlementId grantId : Id) : FaceInv ((HistoryStep.create orderId item now entitlementId grantId).run s) := by
  show FaceInv (match createEntitlementGrantStatements orderId item now entitlementId grantId with
    | .ok sts => commitAlone sts s
    | .error _ => s)
  cases hcreate : createEntitlementGrantStatements orderId item now entitlementId grantId with
  | error a => exact hs
  | ok sts =>
    refine commitAlone_inv hs fun ns t hb => ?_
    exact (batch_within Added.refl Added.trans (create_added hcreate) hb).inv hs

/-! ## Activations and refunds -/

theorem activated_inv (hs : FaceInv s) (h : Activated now g e s t) : FaceInv t := by
  refine ⟨fun x hx => ?_, h.dated hs.dated⟩
  rcases h.entitlement_cases hx with rfl | ⟨hold, hne⟩
  · have hafter : activeGrants t e.id ≠ [] := by
      intro hnil
      have hlength := h.active.length_eq
      rw [hnil, length_append] at hlength
      simp at hlength
    have hcovered := hs.covered e h.entitlement
    exact ⟨hcovered.usage.activated hafter, hcovered.access.activated hafter, fun _ => hafter⟩
  · rw [h.active_other hne]
    exact hs.covered x hold

theorem activated_worth (hs : FaceInv s) (h : Activated now g e s t) (orderItemId : Id) : Worth orderItemId s t := by
  rintro g' hg' - hpending ⟨x, hx, hid, hactive⟩ y hy hyid
  -- the grant that is active after the step is the activated one
  rw [h.grants] at hx
  obtain ⟨z, hz, rfl⟩ := mem_map.mp hx
  have hzid : z.id = g'.id := by
    by_cases hzg : z.id = g.id
    · rw [if_pos hzg] at hid
      exact hid
    · rw [if_neg hzg] at hid
      exact hid
  obtain rfl := Table.eq_of_key hz hg' hzid
  have hzg : z.id = g.id := by
    by_contra hne
    rw [if_neg hne, hpending] at hactive
    cases hactive
  obtain rfl := Table.eq_of_key hz h.grant hzg
  rcases h.entitlement_cases hy with rfl | ⟨-, hne⟩
  · have hcovered := hs.covered e h.entitlement
    exact ⟨hcovered.access.stacked, hcovered.usage.stacked⟩
  · exact absurd (hyid.trans h.owner.symm) hne

theorem rebuildStatements_rows {reads : List EntitlementRead} {v : Id → List EntitlementGrant}
    (hguard : RefundGuard.holds guard now s = true) (hreads : ∀ r ∈ reads, r.active = v r.entitlementId)
    (hb : batch (reads.map (rebuildStatement now guard)) c s = .ok (ns, t)) :
    ∀ x ∈ t.entitlements.rows, ∃ y ∈ s.entitlements.rows, y.id = x.id ∧ y.usageCount = x.usageCount ∧
      y.accessCount = x.accessCount ∧ (x = y ∧ x.id ∉ reads.map (·.entitlementId) ∨
        x.id ∈ reads.map (·.entitlementId) ∧ Rebuilt (v x.id) x ∧
          (x.status = .active ∨ x.status = .exhausted → v x.id ≠ [])) := by
  induction reads generalizing c s ns with
  | nil =>
    simp only [map_nil, batch_nil, Except.ok.injEq, Prod.mk.injEq] at hb
    obtain ⟨-, rfl⟩ := hb
    exact fun x hx => ⟨x, hx, rfl, rfl, rfl, .inl ⟨rfl, not_mem_nil⟩⟩
  | cons r reads ih =>
    obtain ⟨n1, s1, ms1, h1, hb, -⟩ := batch_cons_ok hb
    obtain ⟨-, te, hte, rfl⟩ := update_ok h1
    intro x hx
    obtain ⟨y, hy, hid, husage, haccess, hcases⟩ :=
      ih (by cases guard <;> exact hguard) (fun r' hr' => hreads r' (mem_cons_of_mem _ hr')) hb x hx
    obtain ⟨z, hz, rfl⟩ := mem_map.mp (hte ▸ hy)
    have hread : ∀ i, i ∈ reads.map (·.entitlementId) → i ∈ (r :: reads).map (·.entitlementId) :=
      fun i hi => mem_cons_of_mem _ hi
    by_cases hp : (z.id == r.entitlementId && RefundGuard.holds guard now s) = true
    · rw [if_pos hp] at hid husage haccess hcases
      refine ⟨z, hz, hid, husage, haccess, .inr ?_⟩
      rcases hcases with ⟨rfl, -⟩ | ⟨hmem, hrebuilt⟩
      · rw [Bool.and_eq_true, beq_iff_eq] at hp
        have hv : v z.id = r.active := by rw [hp.1, hreads r mem_cons_self]
        refine ⟨mem_cons.mpr (.inl hp.1), ?_, ?_⟩
        · show Rebuilt (v z.id) _
          rw [hv]
          exact rebuiltEntitlement_rebuilt _ _ _ _ _
        · show _ → v z.id ≠ []
          rw [hv]
          intro hopen hnil
          have hrevoked : (rebuiltEntitlement r.active ((r.entitlement.map (·.usageCount)).getD 0)
              ((r.entitlement.map (·.accessCount)).getD 0) now z).status = .revoked := by
            rw [hnil]
            rfl
          rw [hrevoked] at hopen
          rcases hopen with h | h <;> cases h
      · exact ⟨hread _ hmem, hrebuilt⟩
    · rw [if_neg hp] at hid husage haccess hcases
      refine ⟨z, hz, hid, husage, haccess, hcases.imp ?_ fun ⟨hmem, hrebuilt⟩ => ⟨hread _ hmem, hrebuilt⟩⟩
      rintro ⟨rfl, hnot⟩
      refine ⟨rfl, fun hmem => ?_⟩
      rcases mem_cons.mp hmem with heq | hmem
      · rw [hguard, heq, beq_self_eq_true] at hp
        exact hp rfl
      · exact hnot hmem

theorem refund_inv (hs : FaceInv s) (hcover : RefundCovers orderId s) (hb : batch (refundStatements orderId now guard
      ((affectedEntitlements s orderId).map (readEntitlement s orderId))) 0 s = .ok (ns, t)) : FaceInv t := by
  rcases refund_ok (fun _ => readEntitlement_current s orderId) hb with rfl | h
  · exact hs
  by_cases hguard : RefundGuard.holds guard now s = true
  swap
  · rw [refund_unguarded (Bool.not_eq_true _ ▸ hguard) hb]
    exact hs
  refine ⟨fun x hx => ?_, h.dated hs.dated⟩
  obtain ⟨n1, s1, ms1, h1, hrest, -⟩ := batch_cons_ok hb
  obtain ⟨-, tg, -, rfl⟩ := update_ok h1
  obtain ⟨y, hy, hid, husage, haccess, hcases⟩ := rebuildStatements_rows
    (v := fun e => otherActiveGrants s e orderId) (by cases guard <;> exact hguard)
    (fun r hr => (readEntitlement_current s orderId).2 r hr) hrest x hx
  have hids : ((affectedEntitlements s orderId).map (readEntitlement s orderId)).map (·.entitlementId) =
      affectedEntitlements s orderId := by
    rw [map_map]
    exact map_id' _
  rw [hids] at hcases
  rcases hcases with ⟨rfl, hnot⟩ | ⟨hmem, hrebuilt, hopen⟩
  · rw [h.active_unaffected hnot]
    exact hs.covered x hy
  · -- an affected entitlement has the limits of the grants that stay
    have hcounters := hcover y hy (hid ▸ hmem)
    rw [hid, husage, haccess] at hcounters
    rw [h.active hs.dated]
    refine ⟨?_, ?_, hopen⟩
    · rw [hrebuilt.usage]
      exact hcounters.1
    · rw [hrebuilt.access]
      exact hcounters.2

theorem worth_refl (orderItemId : Id) (s : Db) : Worth orderItemId s s := by
  rintro g hg - hpending ⟨g', hg', hid, hactive⟩
  obtain rfl := Table.eq_of_key hg' hg hid
  rw [hpending] at hactive
  cases hactive

theorem activate_run (orderItemId : Id) (now : Time) (req : Bool) (s : Db) :
    (HistoryStep.ledger (.activate orderItemId now req)).run s = s ∨
      ∃ ns, batch (activateEntitlementGrantStatements orderItemId now req) 0 s =
        .ok (ns, (HistoryStep.ledger (.activate orderItemId now req)).run s) :=
  commit_alone (LedgerSite.activate orderItemId req) (activateEntitlementGrantStatements orderItemId now req) s

theorem refund_run (orderId : Id) (now : Time) (guard : Option RefundGuard) (s : Db) :
    (HistoryStep.ledger (.refund orderId now guard)).run s = s ∨ ∃ ns, batch (refundStatements orderId now guard
          ((affectedEntitlements s orderId).map (readEntitlement s orderId))) 0 s =
        .ok (ns, (HistoryStep.ledger (.refund orderId now guard)).run s) := by
  have halone : (HistoryStep.ledger (.refund orderId now guard)).run s =
      ((Prog.commit (LedgerSite.refund orderId now guard
          ((affectedEntitlements s orderId).map (readEntitlement s orderId)))
        (refundStatements orderId now guard
          ((affectedEntitlements s orderId).map (readEntitlement s orderId))) >>= fun _ => pure () :
          Call LedgerSite Unit).alone s).2 :=
    congrArg Prod.snd (Prog.alone_bind (refundReads_alone orderId s))
  rw [halone]
  exact commit_alone _ _ s

theorem ledger_inv (hs : FaceInv s) {c : LedgerCall} (hcovered : (HistoryStep.ledger c).covered s) :
    FaceInv ((HistoryStep.ledger c).run s) := by
  cases c with
  | activate orderItemId now req =>
    rcases activate_run orderItemId now req s with hidle | ⟨ns, hb⟩
    · rw [hidle]
      exact hs
    · rcases activation_ok hcovered hb with hidle | ⟨g, e, h⟩
      · rw [hidle]
        exact hs
      · exact activated_inv hs h
  | refund orderId now guard =>
    rcases refund_run orderId now guard s with hidle | ⟨ns, hb⟩
    · rw [hidle]
      exact hs
    · exact refund_inv hs hcovered hb

theorem step_faceInv (hs : FaceInv s) {step : HistoryStep} (hcovered : step.covered s) : FaceInv (step.run s) := by
  cases step with
  | create orderId item now entitlementId grantId => exact create_inv hs orderId item now entitlementId grantId
  | ledger c => exact ledger_inv hs hcovered
  | useAccess entitlementId now => exact useAccess_inv hs entitlementId now
  | useBuild entitlementId now => exact useBuild_inv hs entitlementId now
  | reuseBuild entitlementId now => exact reuseBuild_inv hs entitlementId now
  | restoreBuild entitlementId now => exact restoreBuild_inv hs entitlementId now
  | expire now => exact expire_inv hs now

theorem history_faceInv {history : List HistoryStep} (hs : FaceInv s) (hcovered : CoveredHistory history s) :
    FaceInv (runHistory history s) := by
  induction history generalizing s with
  | nil => exact hs
  | cons step history ih => exact ih (step_faceInv hs hcovered.1) hcovered.2

/-- After every history whose refunds leave the counts covered, a grant is worth its face value. -/
theorem grant_worth_face_value {s : Db} (hentitlements : s.entitlements.rows = []) (hgrants : s.grants.rows = [])
    {history : List HistoryStep} (hcovered : CoveredHistory history s) {orderItemId : Id} {now : Time}
    {requireDownloadAsset : Bool}
    (hguard : activationGuarded orderItemId requireDownloadAsset (runHistory history s)) :
    Worth orderItemId (runHistory history s)
      ((HistoryStep.ledger (.activate orderItemId now requireDownloadAsset)).run (runHistory history s)) := by
  have hstart : FaceInv s := by
    refine ⟨fun e he => ?_, fun g hg => ?_⟩
    · rw [hentitlements] at he
      cases he
    · rw [hgrants] at hg
      cases hg
  have hs := history_faceInv hstart hcovered
  generalize runHistory history s = u at hs hguard ⊢
  rcases activate_run orderItemId now requireDownloadAsset u with hidle | ⟨ns, hb⟩
  · rw [hidle]
    exact worth_refl orderItemId u
  · rcases activation_ok hguard hb with hidle | ⟨g, e, h⟩
    · rw [hidle]
      exact worth_refl orderItemId u
    · exact activated_worth hs h orderItemId

/-! ## Two histories -/

def firstItem : ShopOrderItem :=
  { id := 1, orderId := 1, sellableItemId := 7, deliveryComponentId := 7, deliveryComponentType := .download
    quantity := 1, accessLimit := some 3 }

def renewingItem : ShopOrderItem :=
  { id := 2, orderId := 2, sellableItemId := 7, deliveryComponentId := 7, deliveryComponentType := .download
    quantity := 1, accessLimit := some 2, renewedFromEntitlementId := some 5 }

/-- Two paid orders, the second of which renews the entitlement of the first. -/
def renewedDb : Db where
  orders := .of [{ id := 1, status := .paid, version := 2, totalMinor := 10, userId := some 1 },
    { id := 2, status := .paid, version := 2, totalMinor := 10, userId := some 1 }]
  items := .of [firstItem, renewingItem]

def renewedHistory : List HistoryStep :=
  [.create 1 firstItem 100 5 1, .ledger (.activate 1 101 false), .useAccess 5 102, .create 2 renewingItem 103 0 2]

def refundedHistory : List HistoryStep := renewedHistory ++ [.ledger (.refund 1 104 none)]

theorem renewedHistory_covered : CoveredHistory renewedHistory renewedDb := by
  have hguard : activationGuarded 1 false ((HistoryStep.create 1 firstItem 100 5 1).run renewedDb) := by
    decide
  exact ⟨trivial, hguard, trivial, trivial, trivial⟩

theorem grant_worth_face_value_renewed :
    let s := runHistory renewedHistory renewedDb
    let t := (HistoryStep.ledger (.activate 2 105 false)).run s
    t.entitlements.rows.map (fun e => (e.accessLimit, e.accessCount)) = [(some 5, 1)] ∧ Worth 2 s t :=
  ⟨by decide, grant_worth_face_value rfl rfl renewedHistory_covered (by decide)⟩

/-- The renewal grants two accesses, and leaves one. -/
theorem renewal_loses_access :
    ¬∀ s : Db, s.entitlements.rows = [] → s.grants.rows = [] → ∀ history orderItemId now requireDownloadAsset,
      Worth orderItemId (runHistory history s)
        ((HistoryStep.ledger (.activate orderItemId now requireDownloadAsset)).run (runHistory history s)) := by
  intro h
  have hworth := h renewedDb rfl rfl refundedHistory 2 105 false
  have hgrant : ∃ g ∈ (runHistory refundedHistory renewedDb).grants.rows, g.sourceOrderItemId = 2 ∧
      g.status = .pending ∧ g.accessGranted = some 2 ∧ g.entitlementId = 5 ∧
      ∃ g' ∈ ((HistoryStep.ledger (.activate 2 105 false)).run
        (runHistory refundedHistory renewedDb)).grants.rows, g'.id = g.id ∧ g'.status = .active := by
    decide
  have hrow : ∃ e ∈ ((HistoryStep.ledger (.activate 2 105 false)).run
        (runHistory refundedHistory renewedDb)).entitlements.rows,
      e.id = 5 ∧ e.accessLimit = some 2 ∧ e.accessCount = 1 := by
    decide
  obtain ⟨g, hg, hitem, hpending, hgranted, hentitlement, hactive⟩ := hgrant
  obtain ⟨e, he, hid, hlimit, hcount⟩ := hrow
  have hleft := (hworth g hg hitem hpending hactive e he (hid.trans hentitlement.symm)).1 2 hlimit 2 hgranted
  rw [hcount] at hleft
  omega

end Gmshop
