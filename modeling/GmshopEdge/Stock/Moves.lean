import GmshopEdge.Stock.Tools
import GmshopEdge.Orders.Statements

/-!
# What the calls leave of records and stock

The shop and the refunds add items and records and deliver nothing (`RecordsIdle`); every call keeps an
item with its order, a record with its item, and what was delivered delivered (`OwnersKept`). `StoreStmt`
lists the statements of the two that write items, records or stock.
-/

namespace Gmshop

open List Sql Stmt Prog Table

/-! ## Reads -/

variable {a b c s t : Db} {st : Stmt Db} {sts : List (Stmt Db)} {ns : List Nat}
  {p : Db → DeliveryRecord → Bool} {money : Prop} {content n : Nat} {now : Time} {d : DeliveryRef}

theorem deliveriesOfOrder_mem {orderNumber : Nat} {d : SingleDelivery} (h : d ∈ deliveriesOfOrder s orderNumber) :
    (∃ o ∈ s.orders.rows, o.id = d.orderId ∧ o.status = d.orderStatus ∧ o.paidMinor = d.paidMinor ∧
      o.totalMinor = d.totalMinor) ∧
    (∃ i, s.items.get? d.orderItemId = some i ∧ i.orderId = d.orderId ∧ i.sellableItemId = d.sellableItemId) ∧
    ∃ x, s.deliveries.get? d.deliveryId = some x ∧ x.orderItemId = d.orderItemId ∧ x.status = d.deliveryStatus := by
  obtain ⟨o, ho, h⟩ := mem_flatMap.mp h
  obtain ⟨i, hi, h⟩ := mem_flatMap.mp h
  obtain ⟨x, hx, rfl⟩ := mem_map.mp h
  rw [mem_filter, beq_iff_eq] at ho hi hx
  exact ⟨⟨o, ho.1, rfl, rfl, rfl, rfl⟩, ⟨i, mem_get? hi.1, hi.2, rfl⟩, ⟨x, mem_get? hx.1, hx.2, rfl⟩⟩

/-! ## Records -/

/-- No record changes its item, its content or whether it is delivered. -/
structure RecordsIdle (s t : Db) : Prop where
  items : ∃ new, t.items.rows = s.items.rows ++ new
  deliveries : ∃ f new, (∀ d, DeliveryIdleRow d (f d)) ∧
    (∀ d ∈ new, d.contentEncrypted = none) ∧
    t.deliveries.rows = s.deliveries.rows.map f ++ new
  receipts : t.stockReceipts = s.stockReceipts

/-- Items stay with their order and records with their item, delivered ones delivered; no receipt is
lost. -/
structure OwnersKept (s t : Db) : Prop where
  items : ∀ id i, s.items.get? id = some i →
    ∃ i', t.items.get? id = some i' ∧ i'.orderId = i.orderId
  deliveries : ∀ id d, s.deliveries.get? id = some d → ∃ d', t.deliveries.get? id = some d' ∧
    d'.orderItemId = d.orderItemId ∧ (d.status = .delivered → d'.status = .delivered)
  receipts : ∀ x ∈ s.stockReceipts.rows, x ∈ t.stockReceipts.rows

/-- What decides `RecordsIdle`. -/
def recordsCore (s : Db) := (s.items, s.deliveries, s.stockReceipts)

theorem RecordsIdle.of_core (h : recordsCore t = recordsCore s) : RecordsIdle s t := by
  simp only [recordsCore, Prod.mk.injEq] at h
  obtain ⟨hi, hd, hr⟩ := h
  refine ⟨⟨[], ?_⟩, ⟨id, [], DeliveryIdleRow.refl, by simp, ?_⟩, hr⟩
  · rw [hi, append_nil]
  · rw [hd, map_id, append_nil]

theorem RecordsIdle.refl (s : Db) : RecordsIdle s s := .of_core rfl

theorem RecordsIdle.trans (h : RecordsIdle a b) (h' : RecordsIdle b c) : RecordsIdle a c := by
  obtain ⟨is, hi⟩ := h.items
  obtain ⟨is', hi'⟩ := h'.items
  obtain ⟨f, ds, hf, hds, hd⟩ := h.deliveries
  obtain ⟨f', ds', hf', hds', hd'⟩ := h'.deliveries
  refine ⟨⟨is ++ is', by rw [hi', hi, append_assoc]⟩,
    ⟨f' ∘ f, ds.map f' ++ ds', fun d => (hf d).trans (hf' (f d)), fun d hmem => ?_, ?_⟩,
    h'.receipts.trans h.receipts⟩
  · rcases mem_append.mp hmem with hold | hnew
    · obtain ⟨x, hx, rfl⟩ := mem_map.mp hold
      exact (hf' x).content.trans (hds x hx)
    · exact hds' d hnew
  · rw [hd', hd, map_append, map_map, append_assoc]

theorem keeps_recordsIdle (h : Keeps recordsCore st) : Within RecordsIdle st :=
  fun c s n s' hs => .of_core (h c s n s' hs)

theorem batch_recordsIdle (h : ∀ st ∈ sts, Within RecordsIdle st) {c : Nat} (hb : batch sts c s = .ok (ns, t)) :
    RecordsIdle s t :=
  batch_within RecordsIdle.refl (fun _ _ _ => RecordsIdle.trans) h hb

theorem updateDeliveries_recordsIdle {f : Db → DeliveryRecord → DeliveryRecord}
    (hf : ∀ s d, p s d = true → DeliveryIdleRow d (f s d)) :
    Within RecordsIdle (update Db.deliveriesT p f) := by
  intro c s n s' h
  obtain ⟨-, t, ht, rfl⟩ := update_ok h
  refine ⟨⟨[], (append_nil _).symm⟩, ⟨fun d => if p s d then f s d else d, [], fun d => ?_, by simp, ?_⟩, rfl⟩
  · dsimp only
    split
    · next hp => exact hf s d hp
    · exact DeliveryIdleRow.refl d
  · rw [append_nil]
    exact ht

theorem insertItems_recordsIdle (g : Db → List ShopOrderItem) : Within RecordsIdle (insert Db.itemsT .abort g) := by
  intro c s n s' h
  obtain ⟨-, t, ht, rfl⟩ := insert_abort_ok h
  refine ⟨⟨_, ht⟩, ⟨id, [], DeliveryIdleRow.refl, by simp, ?_⟩, rfl⟩
  rw [map_id, append_nil]
  rfl

theorem insertDelivery_recordsIdle {g : Db → List DeliveryRecord}
    (hg : ∀ s, ∀ d ∈ g s, d.contentEncrypted = none) : Within RecordsIdle (insertDelivery g) := by
  intro c s n s' h
  have hrows : ∀ {rs : List DeliveryRecord} {s s' : Db}, (∀ d ∈ rs, d.contentEncrypted = none) →
      insertRows Db.deliveriesT deliveryRedeemRouteSnapshot rs s = .ok s' → RecordsIdle s s' := by
    intro rs
    induction rs with
    | nil =>
      intro s s' _ hr
      simp only [insertRows, Except.ok.injEq] at hr
      exact hr ▸ .refl s
    | cons r rs ih =>
      intro s s' hrs hr
      obtain ⟨n, s1, ns, s2, h1, h2, h3⟩ := insertRows_cons_ok hr
      obtain ⟨-, t, ht, rfl⟩ := insert_abort_ok h1
      have hnew : RecordsIdle s (Db.deliveriesT.set s t) := by
        refine ⟨⟨[], (append_nil _).symm⟩, ⟨id, [r], DeliveryIdleRow.refl, ?_, ?_⟩, rfl⟩
        · intro d hd
          rw [mem_singleton.mp hd]
          exact hrs r mem_cons_self
        · rw [map_id]
          exact ht
      have hroute : RecordsIdle (Db.deliveriesT.set s t) s2 := by
        refine batch_recordsIdle (fun st hst => ?_) h2
        unfold deliveryRedeemRouteSnapshot at hst
        split at hst
        · rw [mem_singleton.mp hst]
          exact updateDeliveries_recordsIdle fun _ _ _ => ⟨rfl, rfl, rfl, rfl, Iff.rfl⟩
        · cases hst
      exact hnew.trans (hroute.trans (ih (fun d hd => hrs d (mem_cons_of_mem _ hd)) h3))
  exact hrows (hg s) (insertEach_ok h).2

/-! ## The statements of the shop -/

/-- What no other statement than those of `StoreStmt` writes. -/
def storeCore (s : Db) := (recordsCore s, s.stock)

theorem storeCore_off : OffPromotion storeCore := by constructor <;> exact fun _ _ => rfl

inductive StoreStmt : Stmt Db → Prop
  | items (g : Db → List ShopOrderItem) : StoreStmt (insert Db.itemsT .abort g)
  | delivery (orderId : Id) (i : OrderItem) (ids : ItemIds) (now : Time) :
      StoreStmt (deliveryStatement orderId i ids now)
  | records (p : Db → DeliveryRecord → Bool) (f : Db → DeliveryRecord → DeliveryRecord)
      (hf : ∀ s d, p s d = true → DeliveryIdleRow d (f s d)) : StoreStmt (update Db.deliveriesT p f)
  | reserve (i : OrderItem) : StoreStmt (reserveStockStatement i)
  | reserveSale (componentId orderItemId : Id) (quantity : Nat) :
      StoreStmt (reserveSaleStatement componentId orderItemId quantity)
  | release (orderId : Id) : StoreStmt (releaseSaleStatement orderId)

theorem FulfillStmt.store {orderId : Id} {items : List OrderItem} (h : FulfillStmt orderId items st) :
    StoreStmt st ∨ Keeps storeCore st := by
  cases h with
  | reserve i _ _ => exact Or.inl (.reserve i)
  | delivery i _ ids now => exact Or.inl (.delivery orderId i ids now)
  | supplierOrder i _ ids now => exact Or.inr (insert_off rfl)
  | newEntitlement g => exact Or.inr (insert_off rfl)
  | newGrant g => exact Or.inr (insert_off rfl)
  | activation item now asset st h =>
    exact Or.inr (activateEntitlementGrantStatements_keep ⟨fun _ _ => rfl, fun _ _ => rfl⟩ item now asset st h)
  | download i _ _ st h =>
    simp only [downloadStatements, mem_cons, not_mem_nil, or_false] at h
    rcases h with rfl | rfl
    · exact Or.inr (insert_off rfl)
    · refine Or.inl (.records _ _ fun s d hp => ⟨rfl, rfl, rfl, rfl, ?_⟩)
      simp only [Bool.and_eq_true, beq_iff_eq] at hp
      simp [hp.1.2]
  | request i _ ids st h =>
    unfold requestStatements at h
    split at h
    · simp only [mem_cons, not_mem_nil, or_false] at h
      rcases h with rfl | rfl <;> exact Or.inr (insert_off rfl)
    split at h
    · cases h
    · rw [mem_singleton.mp h]
      exact Or.inr (insert_off rfl)

theorem PlainStmt.store (h : PlainStmt money st) : StoreStmt st ∨ Keeps storeCore st := by
  cases h with
  | guard p m => exact Or.inr abortWhen_keeps
  | receipts g => exact Or.inr (insert_off rfl)
  | topups p f => exact Or.inr (update_off rfl)
  | fulfill orderId items st h => exact h.store
  | outbox g => exact Or.inr (insert_off rfl)
  | users h p f => exact Or.inr (update_off rfl)
  | wallet h g => exact Or.inr (insert_off rfl)
  | walletOn h g => exact Or.inr (onChanges_within fun _ => insert_off rfl)
  | rewardEntries h g => exact Or.inr (insert_off rfl)
  | holds h g => exact Or.inr (insert_off rfl)
  | releaseSale orderId => exact Or.inl (.release orderId)
  | reserveSale componentId itemId quantity => exact Or.inl (.reserveSale componentId itemId quantity)
  | assets g => exact Or.inr (insert_off rfl)
  | rewards p f =>
    exact Or.inr (updateRewards_keeps (fun _ _ => rfl) (fun _ _ => rfl) fun _ _ => rfl)

theorem ShopStmt.store {paying ordering : Prop} (h : ShopStmt paying ordering money st) :
    StoreStmt st ∨ Keeps storeCore st := by
  cases h with
  | orders p f hf hv hs =>
    exact Or.inr (updateOrders_keeps storeCore_off fun _ _ => rfl)
  | quiet st h =>
    cases h with
    | plain st h => exact h.store
    | attempts st h =>
      cases h with
      | status p f hf hp =>
        exact Or.inr (updateAttempts_keeps storeCore_off (fun _ _ => rfl) fun _ _ => rfl)
      | row p f hf hs => exact Or.inr (update_off rfl)
      | new g hg => exact Or.inr (insert_off rfl)
    | orderRow h p f hf hs => exact Or.inr (update_off rfl)
    | newOrder h g hg => exact Or.inr (insert_off rfl)
    | newOrderOn h g hg => exact Or.inr (onChanges_within fun _ => insert_off rfl)
    | items h g => exact Or.inl (.items g)
    | events c g hg => exact Or.inr (insert_off rfl)
    | paymentEvent h g => exact Or.inr (insertRequired_off rfl)
    | coupons p f => exact Or.inr (update_off rfl)
    | redemptions p f => exact Or.inr (update_off rfl)
    | newRedemption h g => exact Or.inr (insert_off rfl)

theorem StoreStmt.recordsIdle (h : StoreStmt st) : Within RecordsIdle st := by
  cases h with
  | items g => exact insertItems_recordsIdle g
  | delivery orderId i ids now =>
    refine insertDelivery_recordsIdle fun s d hd => ?_
    obtain ⟨o, -, rfl⟩ := mem_map.mp hd
    split <;> rfl
  | records p f hf => exact updateDeliveries_recordsIdle hf
  | reserve i => exact keeps_recordsIdle (update_off rfl)
  | reserveSale componentId itemId quantity =>
    exact keeps_recordsIdle (update_off rfl)
  | release orderId => exact keeps_recordsIdle (update_off rfl)

theorem store_recordsIdle (h : StoreStmt st ∨ Keeps storeCore st) : Within RecordsIdle st :=
  h.elim StoreStmt.recordsIdle fun hk =>
    keeps_recordsIdle fun c s n s' hs => congrArg Prod.fst (hk c s n s' hs)

theorem firstAvailable_available {componentId : Id} {e : StockEntry} (he : e ∈ s.stock.rows)
    (h : (firstAvailable s componentId n).contains e.id = true) : e.status = .available := by
  rw [contains_iff_mem] at h
  obtain ⟨x, hx, hid⟩ := mem_map.mp h
  have hin := mem_of_mem_take hx
  rw [mem_insertionSort, availableEntries, mem_filter, Bool.and_eq_true, beq_iff_eq, beq_iff_eq] at hin
  rw [← eq_of_key hin.1 he hid]
  exact hin.2.2

/-! ## The statements of the refunds -/

theorem CloseStmt.store (h : CloseStmt st) : StoreStmt st ∨ Keeps storeCore st := by
  cases h with
  | entitlements p f => exact Or.inr (update_off rfl)
  | grants p => exact Or.inr (update_off rfl)
  | afterSales p f => exact Or.inr (update_off rfl)
  | events g => exact Or.inr (insert_off rfl)
  | outbox g => exact Or.inr (insert_off rfl)
  | cancel orderId st h =>
    simp only [cancelOpenFulfillmentStatements, mem_cons, not_mem_nil, or_false] at h
    rcases h with rfl | rfl | rfl | rfl
    · exact Or.inr (update_off rfl)
    · exact Or.inr (update_off rfl)
    · refine Or.inl (.records _ _ fun s d hp => ⟨rfl, rfl, rfl, rfl, ?_⟩)
      simp only [Bool.and_eq_true, Bool.or_eq_true, beq_iff_eq] at hp
      rcases hp.1.2 with hst | hst <;> simp [hst]
    · exact Or.inr (update_off rfl)

theorem RefundStmt.store (h : RefundStmt st) : StoreStmt st ∨ Keeps storeCore st := by
  cases h with
  | orders p f _ =>
    exact Or.inr (updateOrders_keeps storeCore_off fun _ _ => rfl)
  | refunds p f =>
    exact Or.inr (updateRefunds_keeps storeCore_off fun _ _ => rfl)
  | refundRow p f => exact Or.inr (update_off rfl)
  | newRefund g =>
    exact Or.inr (insertRefund_keeps storeCore_off fun _ _ => rfl)
  | newRefundOn g =>
    exact Or.inr (onChanges_within fun _ => insertRefund_keeps storeCore_off fun _ _ => rfl)
  | users p f => exact Or.inr (update_off rfl)
  | wallet g => exact Or.inr (insert_off rfl)
  | outbox c g => exact Or.inr (insert_off rfl)
  | close st h => exact h.store

/-! ## The deliveries -/

/-- A record that keeps its item and stays delivered; what it now holds it held before, or `C` allows
it. -/
structure RecordMove (C : Id → Option DeliveryContent → Prop) (d d' : DeliveryRecord) : Prop where
  id : d'.id = d.id
  item : d'.orderItemId = d.orderItemId
  delivered : d.status = .delivered → d'.status = .delivered
  content : d'.contentEncrypted = d.contentEncrypted ∨ C d.id d'.contentEncrypted

structure EntryMove (e e' : StockEntry) : Prop where
  id : e'.id = e.id
  sellable : e'.sellableItemId = e.sellableItemId
  item : e'.orderItemId = e.orderItemId
  status : e'.status = e.status ∨ e.status = .reserved ∧ e'.status = .delivered

structure DeliveryMove (C : Id → Option DeliveryContent → Prop) (s t : Db) : Prop where
  items : t.items = s.items
  deliveries : ∃ f, (∀ d, RecordMove C d (f d)) ∧ t.deliveries.rows = s.deliveries.rows.map f
  stock : ∃ f, (∀ e, EntryMove e (f e)) ∧ t.stock.rows = s.stock.rows.map f
  receipts : t.stockReceipts = s.stockReceipts

section Deliveries

variable {C : Id → Option DeliveryContent → Prop}

theorem RecordMove.refl (d : DeliveryRecord) : RecordMove C d d :=
  ⟨rfl, rfl, fun hd => hd, Or.inl rfl⟩

theorem RecordMove.trans {a b c : DeliveryRecord} (h : RecordMove C a b) (h' : RecordMove C b c) :
    RecordMove C a c where
  id := h'.id.trans h.id
  item := h'.item.trans h.item
  delivered hd := h'.delivered (h.delivered hd)
  content := by
    rcases h'.content with hs | hc
    · rw [hs]
      exact h.content
    · exact Or.inr (h.id ▸ hc)

theorem EntryMove.refl (e : StockEntry) : EntryMove e e := ⟨rfl, rfl, rfl, Or.inl rfl⟩

theorem EntryMove.trans {a b c : StockEntry} (h : EntryMove a b) (h' : EntryMove b c) : EntryMove a c where
  id := h'.id.trans h.id
  sellable := h'.sellable.trans h.sellable
  item := h'.item.trans h.item
  status := by
    rcases h'.status with hs | ⟨hr, hd⟩
    · rw [hs]
      exact h.status
    · rcases h.status with hs | ⟨-, hd'⟩
      · exact Or.inr ⟨hs ▸ hr, hd⟩
      · rw [hd'] at hr
        cases hr

theorem DeliveryMove.of_core (h : storeCore t = storeCore s) : DeliveryMove C s t := by
  simp only [storeCore, recordsCore, Prod.mk.injEq] at h
  obtain ⟨⟨hi, hd, hr⟩, hs⟩ := h
  exact ⟨hi, ⟨id, RecordMove.refl, by rw [hd, map_id]⟩, ⟨id, EntryMove.refl, by rw [hs, map_id]⟩, hr⟩

theorem DeliveryMove.refl (s : Db) : DeliveryMove C s s := .of_core rfl

theorem DeliveryMove.trans (h : DeliveryMove C a b) (h' : DeliveryMove C b c) : DeliveryMove C a c := by
  obtain ⟨f, hf, hfr⟩ := h.deliveries
  obtain ⟨f', hf', hfr'⟩ := h'.deliveries
  obtain ⟨g, hg, hgr⟩ := h.stock
  obtain ⟨g', hg', hgr'⟩ := h'.stock
  exact ⟨h'.items.trans h.items, ⟨f' ∘ f, fun d => (hf d).trans (hf' (f d)), by rw [hfr', hfr, map_map]⟩,
    ⟨g' ∘ g, fun e => (hg e).trans (hg' (g e)), by rw [hgr', hgr, map_map]⟩,
    h'.receipts.trans h.receipts⟩

theorem keeps_deliveryMove (h : Keeps storeCore st) : Within (DeliveryMove C) st :=
  fun c s n s' hs => .of_core (h c s n s' hs)

theorem batch_deliveryMove (h : ∀ st ∈ sts, Within (DeliveryMove C) st) {c : Nat}
    (hb : batch sts c s = .ok (ns, t)) : DeliveryMove C s t :=
  batch_within DeliveryMove.refl (fun _ _ _ => DeliveryMove.trans) h hb

theorem updateDeliveries_move {f : DeliveryRecord → DeliveryRecord}
    (hf : ∀ s d, p s d = true → RecordMove C d (f d)) :
    Within (DeliveryMove C) (update Db.deliveriesT p fun _ => f) := by
  intro c s n s' h
  obtain ⟨-, t, ht, rfl⟩ := update_ok h
  refine ⟨rfl, ⟨fun d => if p s d then f d else d, fun d => ?_, ht⟩, ⟨id, EntryMove.refl, (map_id _).symm⟩, rfl⟩
  dsimp only
  split
  · next hp => exact hf s d hp
  · exact RecordMove.refl d

theorem updateStock_move {p : Db → StockEntry → Bool} {f : StockEntry → StockEntry}
    (hf : ∀ s e, p s e = true → EntryMove e (f e)) :
    Within (DeliveryMove C) (update Db.stockT p fun _ => f) := by
  intro c s n s' h
  obtain ⟨-, t, ht, rfl⟩ := update_ok h
  refine ⟨rfl, ⟨id, RecordMove.refl, (map_id _).symm⟩, ⟨fun e => if p s e then f e else e, fun e => ?_, ht⟩, rfl⟩
  dsimp only
  split
  · next hp => exact hf s e hp
  · exact EntryMove.refl e

theorem DeliveryIdle.move (h : DeliveryIdle s t) : DeliveryMove C s t := by
  obtain ⟨f, hf, hfr⟩ := h.deliveries
  obtain ⟨g, hg, hgr⟩ := h.stock
  have hc := h.core
  simp only [deliveryCore, Prod.mk.injEq] at hc
  refine ⟨hc.1.2.1, ⟨f, fun d => ⟨(hf d).id, (hf d).item, (hf d).delivered.mpr, ?_⟩, hfr⟩,
    ⟨g, fun e => ⟨(hg e).id, (hg e).sellable, (hg e).item, Or.inl (hg e).status⟩, hgr⟩, hc.2.2.2.2⟩
  exact Or.inl (hf d).content

theorem completeOrder_move (orderId : Id) (now : Time) :
    Within (DeliveryMove C) (completeOrderStatement orderId now) :=
  keeps_deliveryMove (updateOrders_keeps storeCore_off fun _ _ => rfl)

theorem activateGrants_move (itemId : Id) (now : Time) :
    ∀ st ∈ activateEntitlementGrantStatements itemId now, Within (DeliveryMove C) st :=
  fun st hst => keeps_deliveryMove (activateEntitlementGrantStatements_keep
    ⟨fun _ _ => rfl, fun _ _ => rfl⟩ itemId now _ st hst)

theorem orderProgress_move (d : DeliveryRef) (n : Nat) (now : Time) :
    ∀ st ∈ orderProgressStatements d n now, Within (DeliveryMove C) st := by
  intro st hst
  refine each_three ?_ ?_ ?_ _ hst
  · exact keeps_deliveryMove (updateOrders_keeps storeCore_off fun _ _ => rfl)
  · exact keeps_deliveryMove (insert_off rfl)
  · exact keeps_deliveryMove (insert_off rfl)

theorem deliverBatch_move {c : DeliveryContext} {content : Option DeliveryContent} :
    ∀ st ∈ deliverBatch c content n now, Within (DeliveryMove fun d x => d = c.id ∧ x = content) st := by
  intro st hst
  simp only [deliverBatch, mem_append, mem_cons, not_mem_nil, or_false] at hst
  rcases hst with (((hst | hst) | hst) | rfl) | hst
  · rcases hst with rfl | rfl
    · refine updateDeliveries_move fun s d hd => ⟨rfl, rfl, fun _ => rfl, Or.inr ⟨?_, rfl⟩⟩
      simp only [Bool.and_eq_true, beq_iff_eq] at hd
      exact hd.1.1.1
    · exact keeps_deliveryMove abortWhen_keeps
  · split at hst
    · rw [mem_singleton.mp hst]
      refine updateStock_move fun s e he => ⟨rfl, rfl, rfl, Or.inr ⟨?_, rfl⟩⟩
      simp only [Bool.and_eq_true, beq_iff_eq] at he
      exact he.2
    · cases hst
  · exact orderProgress_move _ _ _ st hst
  · exact keeps_deliveryMove (update_off rfl)
  · split at hst
    · exact activateGrants_move _ _ st hst
    · cases hst

def PlainContent (_ : Id) (content : Option DeliveryContent) : Prop := ∃ k, content = some (.text k)

theorem completeManualBatch_move :
    ∀ st ∈ completeManualBatch d content n now, Within (DeliveryMove PlainContent) st := by
  intro st hst
  simp only [completeManualBatch, mem_append, mem_cons, not_mem_nil, or_false] at hst
  rcases hst with (rfl | hst) | hst
  · exact updateDeliveries_move fun _ _ _ => ⟨rfl, rfl, fun _ => rfl, Or.inr ⟨content, rfl⟩⟩
  · exact orderProgress_move _ _ _ st hst
  · exact activateGrants_move _ _ st hst

theorem startManualBatch_move : ∀ st ∈ startManualBatch d now, Within (DeliveryMove PlainContent) st := by
  intro st hst
  refine each_three ?_ ?_ ?_ _ hst
  · refine updateDeliveries_move fun s r hr => ⟨rfl, rfl, fun hd => ?_, Or.inl rfl⟩
    simp only [Bool.and_eq_true, beq_iff_eq] at hr
    rw [hr.2] at hd
    cases hd
  · exact keeps_deliveryMove (updateOrders_keeps storeCore_off fun _ _ => rfl)
  · exact keeps_deliveryMove (insert_off rfl)

theorem upgradeBatch_move {row : UpgradeRow} {d : Id} :
    ∀ st ∈ upgradeBatch row d content now, Within (DeliveryMove PlainContent) st := by
  intro st hst
  simp only [upgradeBatch, mem_append, mem_cons, not_mem_nil, or_false] at hst
  rcases hst with ((rfl | rfl) | hst) | rfl | rfl | rfl
  · exact keeps_deliveryMove (update_off rfl)
  · exact updateDeliveries_move fun _ _ _ => ⟨rfl, rfl, fun _ => rfl, Or.inr ⟨content, rfl⟩⟩
  · exact activateGrants_move _ _ st hst
  · exact completeOrder_move _ _
  · exact keeps_deliveryMove (insert_off rfl)
  · exact keeps_deliveryMove (insert_off rfl)

theorem agentBatch_move {row : AgentRow} {d : Id} :
    ∀ st ∈ agentBatch row d now, Within (DeliveryMove PlainContent) st := by
  intro st hst
  simp only [agentBatch, mem_append, mem_cons, not_mem_nil, or_false] at hst
  rcases hst with ((rfl | rfl) | hst) | rfl | rfl
  · exact keeps_deliveryMove (update_off rfl)
  · exact updateDeliveries_move fun _ _ _ => ⟨rfl, rfl, fun _ => rfl, Or.inl rfl⟩
  · exact activateGrants_move _ _ st hst
  · exact completeOrder_move _ _
  · exact keeps_deliveryMove (insert_off rfl)

end Deliveries

/-! ## Owners -/

theorem OwnersKept.refl (s : Db) : OwnersKept s s :=
  ⟨fun _ i hi => ⟨i, hi, rfl⟩, fun _ d hd => ⟨d, hd, rfl, id⟩, fun _ hx => hx⟩

theorem OwnersKept.trans (h : OwnersKept a b) (h' : OwnersKept b c) : OwnersKept a c := by
  refine ⟨fun id i hi => ?_, fun id d hd => ?_, fun x hx => h'.receipts x (h.receipts x hx)⟩
  · obtain ⟨j, hj, hij⟩ := h.items id i hi
    obtain ⟨k, hk, hjk⟩ := h'.items id j hj
    exact ⟨k, hk, hjk.trans hij⟩
  · obtain ⟨e, he, hde, hs⟩ := h.deliveries id d hd
    obtain ⟨f, hf, hef, hs'⟩ := h'.deliveries id e he
    exact ⟨f, hf, hef.trans hde, fun hdel => hs' (hs hdel)⟩

theorem RecordsIdle.owners (h : RecordsIdle s t) : OwnersKept s t := by
  obtain ⟨is, hi⟩ := h.items
  obtain ⟨f, ds, hf, -, hd⟩ := h.deliveries
  refine ⟨fun id i hid => ⟨i, get?_append hi hid, rfl⟩, fun id d hget => ?_, fun x hx => ?_⟩
  · obtain ⟨hmem, hid⟩ := get?_eq_some_iff.mp hget
    refine ⟨f d, get?_eq_some_iff.mpr ⟨?_, (hf d).id.trans hid⟩, (hf d).item, (hf d).delivered.mpr⟩
    rw [hd]
    exact mem_append_left _ (mem_map_of_mem hmem)
  · rw [h.receipts]
    exact hx

theorem DeliveryMove.owners {C : Id → Option DeliveryContent → Prop} (h : DeliveryMove C s t) : OwnersKept s t := by
  obtain ⟨f, hf, hd⟩ := h.deliveries
  refine ⟨fun id i hid => ⟨i, by rw [h.items]; exact hid, rfl⟩, fun id d hget => ?_, fun x hx => ?_⟩
  · refine ⟨f d, ?_, (hf d).item, (hf d).delivered⟩
    rw [get?_map hd fun d => (hf d).id, hget]
    rfl
  · rw [h.receipts]
    exact hx

end Gmshop
