import GmshopEdge.Fulfillment.System

/-!
# Deliveries of open orders

A delivery record becomes delivered, its stock entries become delivered and its grants become active
only while the order of its item is `paid` or `fulfilling` (`DeliversOpen`), beside any refund calls.

`processDelivery` checks the order inside its batch and aborts on a lost record swap. The batches of
`completeManualDelivery`, of the upgrade and the agent branch do not (nor does `processDelivery` when
another call delivered its record already), so for them it is a condition on the state they meet
(`deliveryChecked`).
-/

namespace Gmshop

open List Sql Stmt Prog Table

/-! ## What a step delivers -/

/-- Deliveries move as `f` says, into `delivered` only for records in `D`; stock and grants only for
items in `I`. -/
structure Flips (D I : Id → Prop) (s t : Db) : Prop where
  items : t.items = s.items
  deliveries : ∃ f : DeliveryRecord → DeliveryRecord,
    (∀ d, (f d).id = d.id ∧ (f d).orderItemId = d.orderItemId ∧
      ((f d).status = .delivered → d.status = .delivered ∨ D d.id)) ∧
    t.deliveries.rows = s.deliveries.rows.map f
  stock : ∃ f : StockEntry → StockEntry,
    (∀ e, (f e).id = e.id ∧ (f e).orderItemId = e.orderItemId ∧
      ((f e).status = .delivered → e.status = .delivered ∨ ∃ i, e.orderItemId = some i ∧ I i)) ∧
    t.stock.rows = s.stock.rows.map f
  grants : ∃ f : EntitlementGrant → EntitlementGrant,
    (∀ g, (f g).id = g.id ∧ (f g).sourceOrderItemId = g.sourceOrderItemId ∧
      ((f g).status = .active → g.status = .active ∨ I g.sourceOrderItemId)) ∧
    t.grants.rows = s.grants.rows.map f

/-- The order of the item of every record, entry or grant that `t` has and `s` lacked was open. -/
structure DeliversOpen (s t : Db) : Prop where
  delivery : ∀ d' ∈ t.deliveries.rows, d'.status = .delivered →
    (∃ d ∈ s.deliveries.rows, d.id = d'.id ∧ d.status = .delivered) ∨
      s.itemDeliverable d'.orderItemId = true
  stock : ∀ e' ∈ t.stock.rows, e'.status = .delivered →
    (∃ e ∈ s.stock.rows, e.id = e'.id ∧ e.status = .delivered) ∨
      ∃ i, e'.orderItemId = some i ∧ s.itemDeliverable i = true
  grant : ∀ g' ∈ t.grants.rows, g'.status = .active →
    (∃ g ∈ s.grants.rows, g.id = g'.id ∧ g.status = .active) ∨
      s.itemDeliverable g'.sourceOrderItemId = true

variable {s : Db} {c content n : Nat} {ns : List Nat} {st : Stmt Db} {d i o : Id} {D : Id → Prop} {now : Time}
  {row : UpgradeRow}

section Flips

variable {D I : Id → Prop}

/-- What decides `Flips`. -/
def flipCore (s : Db) := (s.items, s.deliveries, s.stock, s.grants)

theorem Flips.of_core {t : Db} (h : flipCore t = flipCore s) : Flips D I s t := by
  simp only [flipCore, Prod.mk.injEq] at h
  obtain ⟨hi, hd, hs, hg⟩ := h
  refine ⟨hi, ⟨id, fun d => ⟨rfl, rfl, Or.inl⟩, by rw [hd, map_id]⟩,
    ⟨id, fun e => ⟨rfl, rfl, Or.inl⟩, by rw [hs, map_id]⟩,
    ⟨id, fun g => ⟨rfl, rfl, Or.inl⟩, by rw [hg, map_id]⟩⟩

theorem Flips.refl (s : Db) : Flips D I s s := .of_core rfl

theorem Flips.trans {a b c : Db} (h : Flips D I a b) (h' : Flips D I b c) : Flips D I a c := by
  obtain ⟨f, hf, hfr⟩ := h.deliveries
  obtain ⟨f', hf', hfr'⟩ := h'.deliveries
  obtain ⟨g, hg, hgr⟩ := h.stock
  obtain ⟨g', hg', hgr'⟩ := h'.stock
  obtain ⟨k, hk, hkr⟩ := h.grants
  obtain ⟨k', hk', hkr'⟩ := h'.grants
  refine ⟨h'.items.trans h.items, ⟨f' ∘ f, fun d => ?_, by rw [hfr', hfr, map_map]⟩,
    ⟨g' ∘ g, fun e => ?_, by rw [hgr', hgr, map_map]⟩,
    ⟨k' ∘ k, fun x => ?_, by rw [hkr', hkr, map_map]⟩⟩
  · obtain ⟨h1, h2, h3⟩ := hf d
    obtain ⟨h1', h2', h3'⟩ := hf' (f d)
    refine ⟨h1'.trans h1, h2'.trans h2, fun hs => ?_⟩
    rcases h3' hs with hs | hs
    · exact h3 hs
    · exact Or.inr (h1 ▸ hs)
  · obtain ⟨h1, h2, h3⟩ := hg e
    obtain ⟨h1', h2', h3'⟩ := hg' (g e)
    refine ⟨h1'.trans h1, h2'.trans h2, fun hs => ?_⟩
    rcases h3' hs with hs | hs
    · exact h3 hs
    · exact Or.inr (h2 ▸ hs)
  · obtain ⟨h1, h2, h3⟩ := hk x
    obtain ⟨h1', h2', h3'⟩ := hk' (k x)
    refine ⟨h1'.trans h1, h2'.trans h2, fun hs => ?_⟩
    rcases h3' hs with hs | hs
    · exact h3 hs
    · exact Or.inr (h2 ▸ hs)

theorem batch_flips {sts : List (Stmt Db)} (h : ∀ st ∈ sts, Within (Flips D I) st) {s' : Db}
    (hb : batch sts c s = .ok (ns, s')) : Flips D I s s' :=
  batch_within Flips.refl (fun _ _ _ => Flips.trans) h hb

theorem keeps_flips (h : Keeps flipCore st) : Within (Flips D I) st :=
  fun c s n s' hs => .of_core (h c s n s' hs)

theorem flipCore_off : OffPromotion flipCore := by constructor <;> exact fun _ _ => rfl

theorem updateOrders_core (p : Db → ShopOrder → Bool) (f : Db → ShopOrder → ShopOrder) :
    Keeps flipCore (updateOrders p f) :=
  updateOrders_keeps flipCore_off fun _ _ => rfl

theorem updateOrders_flips (p : Db → ShopOrder → Bool) (f : Db → ShopOrder → ShopOrder) :
    Within (Flips D I) (updateOrders p f) :=
  keeps_flips (updateOrders_core p f)

theorem updateDeliveries_flips {p : Db → DeliveryRecord → Bool} {f : DeliveryRecord → DeliveryRecord}
    (hf : ∀ s d, p s d = true → (f d).id = d.id ∧ (f d).orderItemId = d.orderItemId ∧
      ((f d).status = .delivered → D d.id)) :
    Within (Flips D I) (update Db.deliveriesT p (fun _ => f)) := by
  intro c s n s' h
  obtain ⟨-, t, ht, rfl⟩ := update_ok h
  refine ⟨rfl, ⟨_, fun d => ?_, ht⟩, ⟨id, fun e => ⟨rfl, rfl, Or.inl⟩, (map_id _).symm⟩,
    ⟨id, fun g => ⟨rfl, rfl, Or.inl⟩, (map_id _).symm⟩⟩
  split
  · next hp => exact ⟨(hf s d hp).1, (hf s d hp).2.1, fun hs => Or.inr ((hf s d hp).2.2 hs)⟩
  · exact ⟨rfl, rfl, Or.inl⟩

theorem updateStock_flips {p : Db → StockEntry → Bool} {f : StockEntry → StockEntry}
    (hf : ∀ s e, p s e = true → (f e).id = e.id ∧ (f e).orderItemId = e.orderItemId ∧
      ((f e).status = .delivered → ∃ i, e.orderItemId = some i ∧ I i)) :
    Within (Flips D I) (update Db.stockT p (fun _ => f)) := by
  intro c s n s' h
  obtain ⟨-, t, ht, rfl⟩ := update_ok h
  refine ⟨rfl, ⟨id, fun d => ⟨rfl, rfl, Or.inl⟩, (map_id _).symm⟩, ⟨_, fun e => ?_, ht⟩,
    ⟨id, fun g => ⟨rfl, rfl, Or.inl⟩, (map_id _).symm⟩⟩
  split
  · next hp => exact ⟨(hf s e hp).1, (hf s e hp).2.1, fun hs => Or.inr ((hf s e hp).2.2 hs)⟩
  · exact ⟨rfl, rfl, Or.inl⟩

theorem updateGrants_flips {p : Db → EntitlementGrant → Bool} {f : EntitlementGrant → EntitlementGrant}
    (hf : ∀ s g, p s g = true → (f g).id = g.id ∧ (f g).sourceOrderItemId = g.sourceOrderItemId ∧
      ((f g).status = .active → I g.sourceOrderItemId)) :
    Within (Flips D I) (update Db.grantsT p (fun _ => f)) := by
  intro c s n s' h
  obtain ⟨-, t, ht, rfl⟩ := update_ok h
  refine ⟨rfl, ⟨id, fun d => ⟨rfl, rfl, Or.inl⟩, (map_id _).symm⟩,
    ⟨id, fun e => ⟨rfl, rfl, Or.inl⟩, (map_id _).symm⟩, ⟨_, fun g => ?_, ht⟩⟩
  split
  · next hp => exact ⟨(hf s g hp).1, (hf s g hp).2.1, fun hs => Or.inr ((hf s g hp).2.2 hs)⟩
  · exact ⟨rfl, rfl, Or.inl⟩

end Flips

/-! ## The refund calls deliver nothing -/

abbrev NoFlips : Db → Db → Prop := Flips (fun _ => False) (fun _ => False)

theorem CloseStmt.flips (h : CloseStmt st) : Within NoFlips st := by
  cases h with
  | entitlements p f => exact keeps_flips (update_off rfl)
  | grants p => exact updateGrants_flips fun _ _ _ => ⟨rfl, rfl, fun h => (by cases h)⟩
  | afterSales p f => exact keeps_flips (update_off rfl)
  | events g => exact keeps_flips (insert_off rfl)
  | outbox g => exact keeps_flips (insert_off rfl)
  | cancel orderId st h =>
    refine each_four ?_ ?_ ?_ ?_ _ h
    · exact keeps_flips (update_off rfl)
    · exact keeps_flips (update_off rfl)
    · exact updateDeliveries_flips fun _ _ _ => ⟨rfl, rfl, fun h => (by cases h)⟩
    · exact keeps_flips (update_off rfl)

theorem RefundStmt.flips (h : RefundStmt st) : Within NoFlips st := by
  cases h with
  | orders p f _ => exact updateOrders_flips p f
  | refunds p f =>
    exact keeps_flips (updateRefunds_keeps flipCore_off fun _ _ => rfl)
  | refundRow p f => exact keeps_flips (update_off rfl)
  | newRefund g =>
    exact keeps_flips (insertRefund_keeps flipCore_off fun _ _ => rfl)
  | newRefundOn g =>
    exact onChanges_within fun _ => keeps_flips (insertRefund_keeps flipCore_off fun _ _ => rfl)
  | users p f => exact keeps_flips (update_off rfl)
  | wallet g => exact keeps_flips (insert_off rfl)
  | outbox c g => exact keeps_flips (insert_off rfl)
  | close st h => exact h.flips

/-! ## The delivery batches -/

/-- The condition on the delivery batches: the order is open when the batch runs, or the batch finds
nothing it could deliver (for `processDelivery`: its record is not delivered already). -/
def deliveryChecked (x : Site) (s : Db) : Prop :=
  match x with
  | .processDelivery d _ => s.orderIs d.orderId (·.status.deliverable) = true ∨
      ∀ r ∈ s.deliveries.get? d.id, r.status ≠ .delivered
  | .completeManualDelivery d _ => s.orderIs d.orderId (·.status.deliverable) = true ∨
      ((∀ r ∈ s.deliveries.get? d.id, r.status.manualOpen = false) ∧
        ∀ g ∈ s.grants.rows, g.sourceOrderItemId = d.orderItemId → g.status ≠ .pending)
  | .upgradeDelivery _ itemId orderId => s.orderIs orderId (·.status.deliverable) = true ∨
      ((∀ u ∈ s.upgradeOrders.get? itemId, u.state ≠ .delivered) ∧
        ∀ g ∈ s.grants.rows, g.sourceOrderItemId = itemId → g.status ≠ .pending)
  | .agentDelivery _ itemId orderId => s.orderIs orderId (·.status.deliverable) = true ∨
      ∀ g ∈ s.grants.rows, g.sourceOrderItemId = itemId → g.status ≠ .pending
  | _ => True

instance (x : Site) (s : Db) : Decidable (deliveryChecked x s) := by
  casesm Site <;> dsimp only [deliveryChecked] <;> infer_instance

/-- Record `d` belongs to item `i`, item `i` to order `o`. -/
structure Linked (d i o : Id) (s : Db) : Prop where
  record : ∃ r, s.deliveries.get? d = some r ∧ r.orderItemId = i
  item : ∃ x, s.items.get? i = some x ∧ x.orderId = o

/-- Nothing is assumed of the others but that items and the owners of delivery records stay. -/
def openSpec : Spec Db Site Empty where
  inv _ := True
  cond := deliveryChecked
  guar := DeliversOpen
  rely _ s t := t.items = s.items ∧ ∀ d r, s.deliveries.get? d = some r →
    ∃ r', t.deliveries.get? d = some r' ∧ r'.orderItemId = r.orderItemId
  issued _ := ∅
  guar_refl s := ⟨fun d hd hs => Or.inl ⟨d, hd, rfl, hs⟩, fun e he hs => Or.inl ⟨e, he, rfl, hs⟩,
    fun g hg hs => Or.inl ⟨g, hg, rfl, hs⟩⟩
  rely_refl _ s := ⟨rfl, fun _ r hr => ⟨r, hr, rfl⟩⟩
  rely_trans _ a b c h h' := by
    refine ⟨h'.1.trans h.1, fun d r hr => ?_⟩
    obtain ⟨r1, hr1, h1⟩ := h.2 d r hr
    obtain ⟨r2, hr2, h2⟩ := h'.2 d r1 hr1
    exact ⟨r2, hr2, h2.trans h1⟩
  issued_mono _ _ _ := Set.Subset.rfl

section Batches

variable {t u : Db}

theorem itemDeliverable_of_linked (hl : Linked d i o t) (ho : t.orderIs o (·.status.deliverable) = true) :
    t.itemDeliverable i = true := by
  obtain ⟨x, hx, rfl⟩ := hl.item
  refine exist_iff.mpr ⟨x, get?_mem hx, ?_⟩
  have hid : x.id = i := get?_key hx
  simp [hid, ho]

theorem itemDeliverable_order (hl : Linked d i o t) (h : t.itemDeliverable i = true) :
    t.orderIs o (·.status.deliverable) = true := by
  obtain ⟨x, hx, rfl⟩ := hl.item
  obtain ⟨y, hy, hyp⟩ := exist_iff.mp h
  rw [Bool.and_eq_true, beq_iff_eq] at hyp
  have hxy : y = x := eq_of_key hy (get?_mem hx) (hyp.1.trans (get?_key hx).symm)
  rw [← hxy]
  exact hyp.2

theorem flips_admits {I : Id → Prop} (h : Flips D I t u)
    (hD : ∀ r ∈ t.deliveries.rows, D r.id → t.itemDeliverable r.orderItemId = true)
    (hI : ∀ i, I i → t.itemDeliverable i = true) : openSpec.Admits ∅ ∅ t u := by
  obtain ⟨f, hf, hfr⟩ := h.deliveries
  obtain ⟨g, hg, hgr⟩ := h.stock
  obtain ⟨k, hk, hkr⟩ := h.grants
  refine ⟨trivial, ⟨?_, ?_, ?_⟩, fun _ _ _ => ⟨h.items, ?_⟩, Set.empty_subset _⟩
  · intro d' hd' hs
    rw [hfr] at hd'
    obtain ⟨d, hd, rfl⟩ := mem_map.mp hd'
    obtain ⟨h1, h2, h3⟩ := hf d
    rcases h3 hs with hs | hs
    · exact Or.inl ⟨d, hd, h1.symm, hs⟩
    · exact Or.inr (by rw [h2]; exact hD d hd hs)
  · intro e' he' hs
    rw [hgr] at he'
    obtain ⟨e, he, rfl⟩ := mem_map.mp he'
    obtain ⟨h1, h2, h3⟩ := hg e
    rcases h3 hs with hs | ⟨i, hi, hs⟩
    · exact Or.inl ⟨e, he, h1.symm, hs⟩
    · exact Or.inr ⟨i, h2.trans hi, hI i hs⟩
  · intro x' hx' hs
    rw [hkr] at hx'
    obtain ⟨x, hx, rfl⟩ := mem_map.mp hx'
    obtain ⟨h1, h2, h3⟩ := hk x
    rcases h3 hs with hs | hs
    · exact Or.inl ⟨x, hx, h1.symm, hs⟩
    · exact Or.inr (by rw [h2]; exact hI _ hs)
  · intro d r hr
    exact ⟨f r, by rw [get?_map hfr (fun r => (hf r).1), hr]; rfl, (hf r).2.1⟩

theorem noFlips_admits (h : NoFlips t u) : openSpec.Admits ∅ ∅ t u :=
  flips_admits h (fun _ _ h => h.elim) fun _ h => h.elim

theorem open_admits (hl : Linked d i o t) (ho : t.orderIs o (·.status.deliverable) = true)
    (h : Flips (· = d) (· = i) t u) : openSpec.Admits ∅ ∅ t u := by
  have hi := itemDeliverable_of_linked hl ho
  refine flips_admits h (fun r hr hd => ?_) fun j hj => by rw [hj]; exact hi
  obtain ⟨r0, h0, h0i⟩ := hl.record
  have hrr : r = r0 := eq_of_key hr (get?_mem h0) (hd.trans (get?_key h0).symm)
  rw [hrr, h0i]
  exact hi

theorem activateGrants_flips (i : Id) (now : Time) :
    ∀ st ∈ activateEntitlementGrantStatements i now, Within (Flips D (· = i)) st := by
  intro st hst
  refine each_two ?_ ?_ _ hst
  · exact keeps_flips (update_off rfl)
  · refine updateGrants_flips fun s g hg => ⟨rfl, rfl, fun _ => ?_⟩
    simp only [Bool.and_eq_true, beq_iff_eq] at hg
    exact hg.1.1.1

theorem activateGrants_none (hg : ∀ g ∈ t.grants.rows, g.sourceOrderItemId = i → g.status ≠ .pending)
    (hb : batch (activateEntitlementGrantStatements i now) c t = .ok (ns, u)) : flipCore u = flipCore t := by
  obtain ⟨n1, s1, n2, s2, h1, h2, rfl⟩ := batch_two_ok hb
  obtain ⟨-, e, -, rfl⟩ := update_ok h1
  rw [update_miss h2 fun g hgm => ?_]
  · rfl
  · have := hg g hgm
    by_contra hne
    simp only [Bool.not_eq_false, Bool.and_eq_true, beq_iff_eq] at hne
    exact this hne.1.1.1 hne.1.1.2

theorem orderProgress_core (d : DeliveryRef) (n : Nat) (now : Time) :
    ∀ st ∈ orderProgressStatements d n now, Keeps flipCore st := by
  intro st hst
  exact each_three (updateOrders_core _ _) (insert_off rfl) (insert_off rfl) _ hst

theorem deliverBatch_flips {c : DeliveryContext} {content : Option DeliveryContent}
    (hb : batch (deliverBatch c content n now) 0 t = .ok (ns, u)) :
    Flips (· = c.id) (· = c.orderItemId) t u := by
  refine batch_flips ?_ hb
  intro st hst
  simp only [deliverBatch, mem_append, mem_cons, not_mem_nil, or_false] at hst
  rcases hst with (((hst | hst) | hst) | rfl) | hst
  · rcases hst with rfl | rfl
    · refine updateDeliveries_flips fun s d hd => ⟨rfl, rfl, fun _ => ?_⟩
      simp only [Bool.and_eq_true, beq_iff_eq] at hd
      exact hd.1.1.1
    · exact keeps_flips abortWhen_keeps
  · split at hst
    · rw [mem_singleton.mp hst]
      refine updateStock_flips fun s e he => ⟨rfl, rfl, fun _ => ⟨_, ?_, rfl⟩⟩
      simp only [Bool.and_eq_true, beq_iff_eq] at he
      exact he.1
    · cases hst
  · exact keeps_flips (orderProgress_core _ _ _ st hst)
  · exact keeps_flips (update_off rfl)
  · split at hst
    · exact activateGrants_flips _ _ st hst
    · cases hst

theorem completeManualBatch_flips {d : DeliveryRef}
    (hb : batch (completeManualBatch d content n now) 0 t = .ok (ns, u)) :
    Flips (· = d.id) (· = d.orderItemId) t u := by
  refine batch_flips ?_ hb
  intro st hst
  simp only [completeManualBatch, mem_append, mem_cons, not_mem_nil, or_false] at hst
  rcases hst with (rfl | hst) | hst
  · refine updateDeliveries_flips fun s r hr => ⟨rfl, rfl, fun _ => ?_⟩
    rw [Bool.and_eq_true, beq_iff_eq] at hr
    exact hr.1
  · exact keeps_flips (orderProgress_core _ _ _ st hst)
  · exact activateGrants_flips _ _ st hst

theorem upgradeBatch_flips (hb : batch (upgradeBatch row d content now) 0 t = .ok (ns, u)) :
    Flips (· = d) (· = row.orderItemId) t u := by
  refine batch_flips ?_ hb
  intro st hst
  simp only [upgradeBatch, mem_append, mem_cons, not_mem_nil, or_false] at hst
  rcases hst with (hst | hst) | hst
  · rcases hst with rfl | rfl
    · exact keeps_flips (update_off rfl)
    · refine updateDeliveries_flips fun s r hr => ⟨rfl, rfl, fun _ => ?_⟩
      simp only [Bool.and_eq_true, beq_iff_eq] at hr
      exact hr.1.1
  · exact activateGrants_flips _ _ st hst
  · rcases hst with rfl | rfl | rfl
    · exact updateOrders_flips _ _
    · exact keeps_flips (insert_off rfl)
    · exact keeps_flips (insert_off rfl)

theorem agentBatch_flips {row : AgentRow} (hb : batch (agentBatch row d now) 0 t = .ok (ns, u)) :
    Flips (· = d) (· = row.orderItemId) t u := by
  refine batch_flips ?_ hb
  intro st hst
  simp only [agentBatch, mem_append, mem_cons, not_mem_nil, or_false] at hst
  rcases hst with (hst | hst) | hst
  · rcases hst with rfl | rfl
    · exact keeps_flips (update_off rfl)
    · refine updateDeliveries_flips fun s r hr => ⟨rfl, rfl, fun _ => ?_⟩
      simp only [Bool.and_eq_true, beq_iff_eq] at hr
      exact hr.1.1.1
  · exact activateGrants_flips _ _ st hst
  · rcases hst with rfl | rfl
    · exact updateOrders_flips _ _
    · exact keeps_flips (insert_off rfl)

theorem startManualBatch_flips {d : DeliveryRef} (hb : batch (startManualBatch d now) 0 t = .ok (ns, u)) :
    NoFlips t u := by
  refine batch_flips (fun st hst => ?_) hb
  refine each_three ?_ ?_ ?_ _ hst
  · exact updateDeliveries_flips fun _ _ _ => ⟨rfl, rfl, fun h => (by cases h)⟩
  · exact updateOrders_flips _ _
  · exact keeps_flips (insert_off rfl)

theorem deliver_admits {c : DeliveryContext} {content : Option DeliveryContent}
    (hl : Linked c.id c.orderItemId c.orderId t)
    (hcond : deliveryChecked (.processDelivery c.toDeliveryRef n) t)
    (hb : batch (deliverBatch c content n now) 0 t = .ok (ns, u)) : openSpec.Admits ∅ ∅ t u := by
  by_cases ho : t.orderIs c.orderId (·.status.deliverable) = true
  · exact open_admits hl ho (deliverBatch_flips hb)
  · -- the order is closed: the swap misses, the record is not delivered, the batch aborts
    exfalso
    have hnot := hcond.resolve_left ho
    obtain ⟨n1, s1, ns1, h1, hb1, -⟩ := batch_cons_ok hb
    obtain ⟨n2, s2, ns2, h2, -, -⟩ := batch_cons_ok hb1
    have hs1 := update_miss h1 fun d hd => by
      by_contra hne
      simp only [Bool.not_eq_false, Bool.and_eq_true, beq_iff_eq] at hne
      obtain ⟨r, hr, hri⟩ := hl.record
      have hdr : d = r := eq_of_key hd (get?_mem hr) (hne.1.1.1.trans (get?_key hr).symm)
      exact ho (itemDeliverable_order hl (by rw [← hri, ← hdr]; exact hne.1.2))
    obtain ⟨hab, -, -⟩ := abortWhen_ok h2
    rw [Bool.not_eq_false', exist_iff] at hab
    obtain ⟨d, hd, hdp⟩ := hab
    simp only [Bool.and_eq_true, beq_iff_eq] at hdp
    rw [hs1] at hd
    exact hnot d (get?_eq_some_iff.mpr ⟨hd, hdp.1⟩) hdp.2

theorem completeManual_admits {d : DeliveryRef} (hl : Linked d.id d.orderItemId d.orderId t)
    (hcond : deliveryChecked (.completeManualDelivery d n) t)
    (hb : batch (completeManualBatch d content n now) 0 t = .ok (ns, u)) : openSpec.Admits ∅ ∅ t u := by
  by_cases ho : t.orderIs d.orderId (·.status.deliverable) = true
  · exact open_admits hl ho (completeManualBatch_flips hb)
  · obtain ⟨hrec, hgr⟩ := hcond.resolve_left ho
    obtain ⟨ns1, s1, ns2, h1, h2, -⟩ := batch_append_ok hb
    obtain ⟨n0, s0, ns0, h0, h1', -⟩ := batch_cons_ok h1
    have hs0 := update_miss h0 fun r hr => by
      by_contra hne
      simp only [Bool.not_eq_false, Bool.and_eq_true, beq_iff_eq] at hne
      rw [hrec r (get?_eq_some_iff.mpr ⟨hr, hne.1⟩)] at hne
      cases hne.2
    have hs1 : flipCore s1 = flipCore t := by
      rw [batch_keeps (orderProgress_core _ _ _) h1', hs0]
      rfl
    have hg1 : s1.grants = t.grants := congrArg (fun x => x.2.2.2) hs1
    have hu := activateGrants_none (by rw [hg1]; exact hgr) h2
    exact noFlips_admits (.of_core (hu.trans hs1))

theorem upgrade_admits (hl : Linked d row.orderItemId row.orderId t)
    (hcond : deliveryChecked (.upgradeDelivery d row.orderItemId row.orderId) t)
    (hb : batch (upgradeBatch row d content now) 0 t = .ok (ns, u)) : openSpec.Admits ∅ ∅ t u := by
  by_cases ho : t.orderIs row.orderId (·.status.deliverable) = true
  · exact open_admits hl ho (upgradeBatch_flips hb)
  · obtain ⟨hstate, hgr⟩ := hcond.resolve_left ho
    obtain ⟨ns1, s2, ns2, h1, h2, -⟩ := batch_append_ok hb
    obtain ⟨ns3, s1, ns4, h3, h4, -⟩ := batch_append_ok h1
    obtain ⟨k1, t1, _, hu1, h3', -⟩ := batch_cons_ok h3
    obtain ⟨k2, t2, _, hu2, h3'', -⟩ := batch_cons_ok h3'
    simp only [batch_nil, Except.ok.injEq, Prod.mk.injEq] at h3''
    obtain ⟨-, rfl⟩ := h3''
    have ht1 := update_miss hu1 fun x hx => by
      by_contra hne
      simp only [Bool.not_eq_false, Bool.and_eq_true, beq_iff_eq] at hne
      -- deliverable would mean that the order is open
      obtain ⟨y, hy, hyp⟩ := exist_iff.mp hne.2
      simp only [Bool.and_eq_true, beq_iff_eq] at hyp
      obtain ⟨o, hom, hop⟩ := exist_iff.mp hyp.1.2
      simp only [Bool.and_eq_true, beq_iff_eq] at hop
      refine ho (itemDeliverable_order hl (exist_iff.mpr ⟨y, hy, ?_⟩))
      rw [Bool.and_eq_true, beq_iff_eq]
      exact ⟨hyp.1.1.trans hne.1.1, exist_iff.mpr ⟨o, hom, by simp [hop.1, hop.2.1]⟩⟩
    have ht2 := update_miss hu2 fun r hr => by
      by_contra hne
      simp only [Bool.not_eq_false, Bool.and_eq_true, beq_iff_eq] at hne
      obtain ⟨x, hx, hxp⟩ := exist_iff.mp hne.2
      simp only [Bool.and_eq_true, beq_iff_eq] at hxp
      rw [ht1] at hx hr
      obtain ⟨r0, hr0, hri⟩ := hl.record
      have hrr : r = r0 := eq_of_key hr (get?_mem hr0) (hne.1.1.trans (get?_key hr0).symm)
      exact hstate x (get?_eq_some_iff.mpr ⟨hx, by
        show x.orderItemId = _
        rw [hxp.1, hrr, hri]⟩) hxp.2
    have hs1 : flipCore t2 = flipCore t := by
      rw [ht2, ht1]
      rfl
    have hg1 : t2.grants = t.grants := congrArg (fun x => x.2.2.2) hs1
    have hs2 := activateGrants_none (by rw [hg1]; exact hgr) h4
    have hu : flipCore u = flipCore s2 := by
      refine batch_keeps (fun st hst => ?_) h2
      exact each_three (updateOrders_core _ _) (insert_off rfl) (insert_off rfl) _ hst
    exact noFlips_admits (.of_core (hu.trans (hs2.trans hs1)))

theorem agent_admits {row : AgentRow} (hl : Linked d row.orderItemId row.orderId t)
    (hcond : deliveryChecked (.agentDelivery d row.orderItemId row.orderId) t)
    (hb : batch (agentBatch row d now) 0 t = .ok (ns, u)) : openSpec.Admits ∅ ∅ t u := by
  by_cases ho : t.orderIs row.orderId (·.status.deliverable) = true
  · exact open_admits hl ho (agentBatch_flips hb)
  · have hgr := hcond.resolve_left ho
    obtain ⟨ns1, s2, ns2, h1, h2, -⟩ := batch_append_ok hb
    obtain ⟨ns3, s1, ns4, h3, h4, -⟩ := batch_append_ok h1
    obtain ⟨k1, t1, _, hu1, h3', -⟩ := batch_cons_ok h3
    obtain ⟨k2, t2, _, hu2, h3'', -⟩ := batch_cons_ok h3'
    simp only [batch_nil, Except.ok.injEq, Prod.mk.injEq] at h3''
    obtain ⟨-, rfl⟩ := h3''
    obtain ⟨-, e, -, rfl⟩ := update_ok hu1
    have ht2 := update_miss hu2 fun r hr => by
      by_contra hne
      simp only [Bool.not_eq_false, Bool.and_eq_true] at hne
      exact ho hne.2
    have hs1 : flipCore t2 = flipCore t := by
      rw [ht2]
      rfl
    have hg1 : t2.grants = t.grants := congrArg (fun x => x.2.2.2) hs1
    have hs2 := activateGrants_none (by rw [hg1]; exact hgr) h4
    have hu : flipCore u = flipCore s2 := by
      refine batch_keeps (fun st hst => ?_) h2
      exact each_two (updateOrders_core _ _) (insert_off rfl) _ hst
    exact noFlips_admits (.of_core (hu.trans (hs2.trans hs1)))

theorem DeliveryIdle.noFlips (h : DeliveryIdle t u) : NoFlips t u := by
  have hc := h.core
  simp only [deliveryCore, Prod.mk.injEq] at hc
  obtain ⟨⟨-, hi, -⟩, hg, -⟩ := hc
  obtain ⟨f, hf, hfr⟩ := h.deliveries
  obtain ⟨g, hg', hgr⟩ := h.stock
  refine ⟨hi, ⟨f, fun d => ⟨(hf d).id, (hf d).item, fun hs => Or.inl ((hf d).delivered.mp hs)⟩, hfr⟩,
    ⟨g, fun e => ⟨(hg' e).id, (hg' e).item, fun hs => Or.inl ((hg' e).status ▸ hs)⟩, hgr⟩,
    ⟨id, fun _ => ⟨rfl, rfl, Or.inl⟩, by rw [hg, map_id]⟩⟩

end Batches

theorem open_deliverySteps : DeliverySteps openSpec Linked where
  link s d i o _ hd hi ho := by
    have hid : i.id = d.orderItemId := get?_key hi
    exact ⟨⟨d, hd, hid.symm⟩, ⟨i, by rw [hid]; exact hi, (get?_key ho).symm⟩⟩
  stable d i o s t hl hr := by
    obtain ⟨r, hrec, hri⟩ := hl.record
    obtain ⟨x, hx, hxo⟩ := hl.item
    obtain ⟨r', hr', h'⟩ := hr.2 d r hrec
    exact ⟨⟨r', hr', h'.trans hri⟩, ⟨x, by rw [hr.1]; exact hx, hxo⟩⟩
  idle _ _ _ _ _ h := noFlips_admits h.noFlips
  upgrade _ _ _ _ _ _ _ _ hl hc hb := upgrade_admits hl hc hb
  agent _ _ _ _ _ _ _ hl hc hb := agent_admits hl hc hb
  process _ _ _ _ _ _ _ _ hl _ _ hc hb := deliver_admits hl hc hb
  start _ _ _ _ _ _ _ _ _ hb := noFlips_admits (startManualBatch_flips hb)
  complete _ _ _ _ _ _ _ _ hl _ hc hb := completeManual_admits hl hc hb

/-! ## The system -/

theorem refundOrDelivery_open (c : RefundCall ⊕ DeliveryCall) (s : Db) (_ : openSpec.inv s) :
    Prog.Ok openSpec Prog.anyEnd (refundOrDelivery c) ∅ s := by
  cases c with
  | inl c =>
    have hbare := c.only.bare (S := openSpec) Flips.refl (fun _ _ _ => Flips.trans)
      (fun _ => RefundStmt.flips) (fun _ _ _ => noFlips_admits) s
    exact (Bare.bind hbare fun _ _ _ => Bare.done _).ok
  | inr c => exact (Bare.bind (c.bare open_deliverySteps s) fun _ _ _ => Bare.done _).ok

/-- In every run whose delivery batches are `deliveryChecked`, every step delivers only what belongs
to an order that is `paid` or `fulfilling` in it. -/
theorem delivers_open {s : Db} {w w' : World Db Site DomainError (RefundReply ⊕ DeliveryReply)}
    (hrun : Runs refundOrDelivery deliveryChecked ⟨s, []⟩ w)
    (hstep : Step refundOrDelivery deliveryChecked w w') : DeliversOpen w.db w'.db := by
  have hgood := (Runs.sound openSpec refundOrDelivery_open hrun (good_idle _ trivial)).1
  exact (Step.sound openSpec refundOrDelivery_open hstep hgood).2.1

/-! ## Two runs -/

def downloadWorld : World Db Site DomainError (RefundReply ⊕ DeliveryReply) :=
  World.exec refundOrDelivery deliveryChecked ⟨paidDownloadDb, []⟩
    (.start (.inr (.process 1 (offlineEnv 5))) :: List.replicate 4 (.run 0))

theorem delivers_open_download : (downloadWorld.move refundOrDelivery deliveryChecked (.run 0)).db.deliveries.rows.map
        (fun d => d.status) = [.delivered] ∧
      DeliversOpen downloadWorld.db (downloadWorld.move refundOrDelivery deliveryChecked (.run 0)).db :=
  have hd : (downloadWorld.move refundOrDelivery deliveryChecked (.run 0)).db.deliveries.rows.map
      (fun d => d.status) = [.delivered] := by decide
  have hne : downloadWorld.move refundOrDelivery deliveryChecked (.run 0) ≠ downloadWorld := by
    intro h
    have hw : downloadWorld.db.deliveries.rows.map (fun d => d.status) = [.pending] := by
      decide
    rw [h, hw] at hd
    cases hd
  ⟨hd, delivers_open (World.exec_runs _ _ _ _) (World.move_step _ _ hne)⟩

def manualDb : Db :=
  { paidOrderDb with
    items := .of [{ id := 1, orderId := 1, sellableItemId := 1, deliveryComponentId := 1
                    deliveryComponentType := .stock, quantity := 1 }]
    sellableItems := .of [{ id := 1, fulfillmentSource := .manual }]
    deliveries := .of [{ id := 1, orderItemId := 1, deliveryType := .stock, status := .processing }] }

/-- A manual completion has made its reads when the order is refunded in full. -/
def manualAfterRefund : World Db Site DomainError (RefundReply ⊕ DeliveryReply) :=
  World.exec refundOrDelivery anySite ⟨manualDb, []⟩ ([Move.start (.inr (.complete 1 (some 7) true 5)), Move.run 0, Move.run 0,
      Move.start (.inl (fullRefund 10 1 6))] ++ List.replicate 12 (Move.run 1) ++
      [Move.start (.inl (answered 10 (.succeeded (.provider 1) none) 8))] ++
      List.replicate 12 (Move.run 2))

/-- The manual completion then delivers for the refunded order. -/
theorem not_delivers_open : ¬∀ (s : Db) (w w' : World Db Site DomainError (RefundReply ⊕ DeliveryReply)),
      Runs refundOrDelivery anySite ⟨s, []⟩ w → Step refundOrDelivery anySite w w' → DeliversOpen w.db w'.db := by
  intro h
  have hd : (manualAfterRefund.move refundOrDelivery anySite (.run 0)).db.deliveries.rows.map
      (fun d => (d.id, d.orderItemId, d.status)) = [(1, 1, .delivered)] := by decide
  have hw : manualAfterRefund.db.deliveries.rows.map (fun d => (d.id, d.orderItemId, d.status)) =
      [(1, 1, .processing)] := by decide
  have hclosed : manualAfterRefund.db.itemDeliverable 1 = false := by decide
  have hne : manualAfterRefund.move refundOrDelivery anySite (.run 0) ≠ manualAfterRefund := by
    intro heq
    rw [heq, hw] at hd
    cases hd
  have hopen := (h manualDb manualAfterRefund _ (World.exec_runs _ _ _ _) (World.move_step _ _ hne)).delivery
  obtain ⟨d, hmem, hdp⟩ := mem_map.mp (hd ▸ mem_cons_self : (1, 1, _) ∈ _)
  simp only [Prod.mk.injEq] at hdp
  rcases hopen d hmem hdp.2.2 with ⟨d0, h0, -, hs⟩ | hitem
  · have hmem0 := mem_map_of_mem (f := fun d : DeliveryRecord => (d.id, d.orderItemId, d.status)) h0
    rw [hw, mem_singleton, Prod.mk.injEq, Prod.mk.injEq] at hmem0
    rw [hs] at hmem0
    cases hmem0.2.2
  · rw [hdp.2.1, hclosed] at hitem
    cases hitem

end Gmshop
