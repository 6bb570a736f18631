import GmshopEdge.Orders.System

/-!
# The statements of a fulfilment

`FulfillStmt` lists the kinds of statements that paying an order splices into its batch, each with the
item row it was made of (`fulfillment_stmts`). What holds of every one of them holds of the fulfilment
part of any paying batch.
-/

namespace Gmshop

open List Sql Stmt

inductive FulfillStmt (orderId : Id) (items : List OrderItem) : Stmt Db → Prop
  | reserve (i : OrderItem) (hi : i ∈ items) (hl : i.localStock = true) :
      FulfillStmt orderId items (reserveStockStatement i)
  | delivery (i : OrderItem) (hi : i ∈ items) (ids : ItemIds) (now : Time) :
      FulfillStmt orderId items (deliveryStatement orderId i ids now)
  | supplierOrder (i : OrderItem) (hi : i ∈ items) (ids : ItemIds) (now : Time) :
      FulfillStmt orderId items (supplierOrderStatement orderId i ids now)
  | newEntitlement (g : Db → List CustomerEntitlement) :
      FulfillStmt orderId items (insert Db.entitlementsT .abort g)
  | newGrant (g : Db → List EntitlementGrant) :
      FulfillStmt orderId items (insert Db.grantsT .abort g)
  | activation (item : Id) (now : Time) (asset : Bool) (st : Stmt Db)
      (h : st ∈ activateEntitlementGrantStatements item now asset) : FulfillStmt orderId items st
  | download (i : OrderItem) (hi : i ∈ items) (hd : i.item.deliveryComponentType = .download)
      (st : Stmt Db) (h : st ∈ downloadStatements orderId i.item) : FulfillStmt orderId items st
  | request (i : OrderItem) (hi : i ∈ items) (ids : ItemIds) (st : Stmt Db)
      (h : st ∈ requestStatements orderId i ids) : FulfillStmt orderId items st

variable {sts : List (Stmt Db)} {now : Time} {γ : Type} {orderId : Id} {g : Db → γ}

section Statements

variable {orderId : Id} {items : List OrderItem}

theorem createEntitlement_stmts {item : ShopOrderItem} {e g : Id}
    (h : createEntitlementGrantStatements orderId item now e g = .ok sts) :
    ∀ st ∈ sts, FulfillStmt orderId items st := by
  unfold createEntitlementGrantStatements at h
  cases hu : multipliedLimit item.usageLimit item.quantity with
  | error a => simp [hu, bind, Except.bind] at h
  | ok u =>
    cases ha : multipliedLimit item.accessLimit item.quantity with
    | error a => simp [hu, ha, bind, Except.bind] at h
    | ok a =>
      simp only [hu, ha, bind, Except.bind, pure, Except.pure, Except.ok.injEq] at h
      subst h
      intro st hst
      rcases mem_append.mp hst with hst | hst
      · split at hst
        · rw [mem_singleton.mp hst]
          exact .newEntitlement _
        · cases hst
      · rw [mem_singleton.mp hst]
        exact .newGrant _

theorem itemFulfillment_stmts {i : OrderItem} (hi : i ∈ items) {ids : ItemIds}
    (h : fulfillmentStatements orderId i ids now = .ok sts) : ∀ st ∈ sts, FulfillStmt orderId items st := by
  unfold fulfillmentStatements at h
  split at h
  · cases h
  split at h
  · cases h
  cases he : createEntitlementGrantStatements orderId i.item now ids.entitlement ids.grant with
  | error a => simp [he, bind, Except.bind] at h
  | ok entitlement =>
    simp only [he, bind, Except.bind, pure, Except.pure, Except.ok.injEq] at h
    subst h
    intro st hst
    simp only [mem_append] at hst
    rcases hst with (((((hst | hst) | hst) | hst) | hst) | hst) | hst
    · split at hst
      · next hl =>
        rw [mem_singleton.mp hst]
        exact .reserve i hi hl
      · cases hst
    · rw [mem_singleton.mp hst]
      exact .delivery i hi ids now
    · split at hst
      · rw [mem_singleton.mp hst]
        exact .supplierOrder i hi ids now
      · cases hst
    · exact createEntitlement_stmts he st hst
    · split at hst
      · next hd => exact .download i hi hd st hst
      · cases hst
    · split at hst
      · cases hst
      · exact .activation _ _ _ st hst
    · exact .request i hi ids st hst

theorem fulfillment_stmts {ids : Id → ItemIds} (h : orderFulfillmentStatements orderId items ids now = .ok sts) :
    ∀ st ∈ sts, FulfillStmt orderId items st := by
  unfold orderFulfillmentStatements at h
  cases hm : items.mapM fun i => fulfillmentStatements orderId i (ids i.item.id) now with
  | error a => simp [hm, bind, Except.bind] at h
  | ok parts =>
    simp only [hm, bind, Except.bind, pure, Except.pure, Except.ok.injEq] at h
    subst h
    have hparts : ∀ (xs : List OrderItem) (ps : List (List (Stmt Db))), (∀ i ∈ xs, i ∈ items) →
        xs.mapM (fun i => fulfillmentStatements orderId i (ids i.item.id) now) = .ok ps →
        ∀ p ∈ ps, ∀ st ∈ p, FulfillStmt orderId items st := by
      intro xs
      induction xs with
      | nil =>
        intro ps _ hps p hp
        simp only [mapM_nil, pure, Except.pure, Except.ok.injEq] at hps
        subst hps
        cases hp
      | cons i xs ih =>
        intro ps hxs hps p hp
        rw [mapM_cons] at hps
        cases hi : fulfillmentStatements orderId i (ids i.item.id) now with
        | error a => simp [hi, bind, Except.bind] at hps
        | ok p0 =>
          cases hr : xs.mapM fun i => fulfillmentStatements orderId i (ids i.item.id) now with
          | error a => simp [hi, hr, bind, Except.bind] at hps
          | ok rest =>
            simp only [hi, hr, bind, Except.bind, pure, Except.pure, Except.ok.injEq] at hps
            subst hps
            rcases mem_cons.mp hp with rfl | hp
            · exact itemFulfillment_stmts (hxs i mem_cons_self) hi
            · exact ih rest (fun x hx => hxs x (mem_cons_of_mem _ hx)) hr p hp
    intro st hst
    obtain ⟨p, hp, hst⟩ := mem_flatten.mp hst
    exact hparts items parts (fun _ hi => hi) hm p hp st hst

end Statements

/-! ## What a fulfilment leaves alone -/

/-- A component of the database apart from the tables a fulfilment writes. -/
structure OffFulfillment {γ : Type} (g : Db → γ) : Prop where
  stock : ∀ s t, g (Db.stockT.set s t) = g s
  deliveries : ∀ s t, g (Db.deliveriesT.set s t) = g s
  supplierOrders : ∀ s t, g (Db.supplierOrdersT.set s t) = g s
  entitlements : ∀ s t, g (Db.entitlementsT.set s t) = g s
  grants : ∀ s t, g (Db.grantsT.set s t) = g s
  downloadAssets : ∀ s t, g (Db.downloadAssetsT.set s t) = g s
  outbox : ∀ s t, g (Db.outboxT.set s t) = g s

theorem insertDelivery_keeps {f : Db → List DeliveryRecord}
    (hd : ∀ s t, g (Db.deliveriesT.set s t) = g s) : Keeps g (insertDelivery f) :=
  insertEach_keeps hd (fun _ => each_if fun _ => forall_mem_singleton.mpr (update_keeps hd)) f

theorem FulfillStmt.keeps {items : List OrderItem} {st : Stmt Db} (h : FulfillStmt orderId items st)
    (hg : OffFulfillment g) : Keeps g st := by
  cases h with
  | reserve i _ _ => exact update_keeps hg.stock
  | delivery i _ ids now => exact insertDelivery_keeps hg.deliveries
  | supplierOrder i _ ids now => exact insert_keeps hg.supplierOrders
  | newEntitlement g => exact insert_keeps hg.entitlements
  | newGrant g => exact insert_keeps hg.grants
  | activation item now asset st h =>
    exact activateEntitlementGrantStatements_keep ⟨hg.grants, hg.entitlements⟩ item now asset st h
  | download i _ _ st h =>
    exact each_two (insert_keeps hg.downloadAssets) (update_keeps hg.deliveries) _ h
  | request i _ ids st h =>
    unfold requestStatements at h
    split at h
    · exact each_two (insert_keeps hg.outbox) (insert_keeps hg.outbox) _ h
    split at h
    · cases h
    · rw [mem_singleton.mp h]
      exact insert_keeps hg.outbox

theorem fulfillment_keeps {τ : Type} {S : Spec Db Site τ} {e : PaymentEnv} {t : Db}
    (h : Fulfills S orderId e sts t) (hg : OffFulfillment g) :
    ∀ st ∈ sts, Keeps g st := by
  obtain ⟨items, -, hful⟩ := h
  exact fun st hst => (fulfillment_stmts hful st hst).keeps hg

end Gmshop
