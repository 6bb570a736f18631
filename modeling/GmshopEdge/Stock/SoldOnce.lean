import GmshopEdge.Stock.Reconcile
import GmshopEdge.Lib.Checked

/-!
# No item holds more than its quantity

Stock is reserved at checkout, for an item that is new, and again at payment, for what is missing of the quantity. The
reservation at payment counts reserved entries only and does not ask whether the order was paid by its own batch: after
the delivery it takes the quantity once more (`saleCurrent`).
-/

namespace Gmshop

open List Sql Stmt Prog Table Option Prod

/-! ## The property -/

def StockEntry.heldBy (itemId : Id) (e : StockEntry) : Bool :=
  e.orderItemId == some itemId && (e.status == .reserved || e.status == .delivered)

def heldCount (s : Db) (itemId : Id) : Nat := s.stock.count (StockEntry.heldBy itemId)

def quantityOf (s : Db) (itemId : Id) : Nat := ((s.items.get? itemId).map (·.quantity)).getD 0

def WithinQuantity (s : Db) : Prop := ∀ itemId, heldCount s itemId ≤ quantityOf s itemId

def DeliveredKept (s t : Db) : Prop := ∀ entryId itemId, Delivered s entryId itemId → Delivered t entryId itemId

def noneDelivered (s : Db) (orderId : Id) : Bool :=
  !s.stock.exist fun e => e.status == .delivered && e.orderItemId.any fun i => s.itemOf orderId i

/-- The condition: an order is paid while nothing is delivered to its items. -/
def saleCurrent (x : Site) (s : Db) : Prop :=
  match x with
  | .orderPayment _ orderId _ _ => noneDelivered s orderId = true
  | .completeFreeStoreOrder orderId _ => noneDelivered s orderId = true
  | .completeWalletStoreOrder orderId _ => noneDelivered s orderId = true
  | _ => True

instance (x : Site) (s : Db) : Decidable (saleCurrent x s) := by
  casesm Site <;> dsimp only [saleCurrent] <;> infer_instance

structure SaleKept (s t : Db) : Prop where
  items : ∃ new, t.items.rows = s.items.rows ++ new
  delivered : DeliveredKept s t

variable {itemId : Id} {st : Stmt Db} {C : Id → Option DeliveryContent → Prop} {sts : List (Stmt Db)}
  {x : Site} {i : OrderItem} {q : Checkout} {capacity : List Id} {s t : Db}

section Kept

variable {s t u : Db}

theorem SaleKept.refl (s : Db) : SaleKept s s := ⟨⟨[], (append_nil _).symm⟩, fun _ _ h => h⟩

theorem SaleKept.trans (h : SaleKept s t) (h' : SaleKept t u) : SaleKept s u := by
  obtain ⟨new, hnew⟩ := h.items
  obtain ⟨new', hnew'⟩ := h'.items
  refine ⟨⟨new ++ new', ?_⟩, fun e i hd => h'.delivered e i (h.delivered e i hd)⟩
  rw [hnew', hnew, append_assoc]

theorem SaleKept.item (h : SaleKept s t) {i : ShopOrderItem} (hi : s.items.get? itemId = some i) :
    t.items.get? itemId = some i := by
  obtain ⟨new, hnew⟩ := h.items
  exact get?_append hnew hi

theorem SaleKept.quantity (h : SaleKept s t) (itemId : Id) : quantityOf s itemId ≤ quantityOf t itemId := by
  unfold quantityOf
  cases hi : s.items.get? itemId with
  | none => exact Nat.zero_le _
  | some i =>
    rw [h.item hi]

theorem store_saleKept (h : StoreStmt st ∨ Keeps storeCore st) : Within SaleKept st := by
  intro c s n t hst
  refine ⟨(store_recordsIdle h c s n t hst).items, fun _ _ => ?_⟩
  rcases h with h | h
  · exact (h.entriesHeld c s n t hst).delivered
  · exact (EntriesHeld.of_eq (congrArg snd (h c s n t hst))).delivered

theorem DeliveryMove.saleKept (h : DeliveryMove C s t) : SaleKept s t :=
  ⟨⟨[], by rw [h.items, append_nil]⟩, fun _ _ => h.entriesHeld.delivered⟩

end Kept

/-! ## Counting what is held -/

section Counts

variable {s t : Db} {c n : Nat}

theorem heldCount_eq (s : Db) (itemId : Id) : heldCount s itemId = reservedCount s itemId +
    s.stock.count fun e => e.orderItemId == some itemId && e.status == .delivered := by
  unfold heldCount reservedCount Table.count
  induction s.stock.rows with
  | nil => rfl
  | cons e rows ih =>
    rw [countP_cons, countP_cons, countP_cons, ih]
    unfold StockEntry.heldBy
    cases e.orderItemId == some itemId <;> cases e.status <;> simp <;> omega

theorem StockEntry.heldBy_available {e : StockEntry} (h : e.status = .available) : e.heldBy itemId = false := by
  unfold StockEntry.heldBy
  rw [h]
  exact Bool.and_false _

theorem reservedFor_heldBy (itemId j : Id) (e : StockEntry) : (reservedFor itemId e).heldBy j = (itemId == j) := by
  unfold StockEntry.heldBy reservedFor
  simp

theorem count_contains_le (s : Db) (ids : List Id) : (s.stock.count fun e => ids.contains e.id) ≤ ids.length := by
  unfold Table.count
  rw [countP_eq_length_filter]
  have hkeys : ((s.stock.rows.filter fun e => ids.contains e.id).map (·.id)).Nodup := by
    refine List.Nodup.map_on ?_ ?_
    · intro a ha b hb hid
      exact Table.eq_of_key (mem_of_mem_filter ha) (mem_of_mem_filter hb) hid
    · exact List.Nodup.filter _ (s.stock.keys_pairwise.imp fun hne heq => hne (by rw [heq]))
  have hsub : (s.stock.rows.filter fun e => ids.contains e.id).map (·.id) ⊆ ids := by
    intro id hid
    obtain ⟨e, he, rfl⟩ := mem_map.mp hid
    exact contains_iff_mem.mp (mem_filter.mp he).2
  have hlength := (subperm_of_subset hkeys hsub).length_le
  rwa [length_map] at hlength

theorem firstAvailable_length (s : Db) (componentId : Id) (k : Nat) : (firstAvailable s componentId k).length ≤ k := by
  unfold firstAvailable
  rw [length_map, length_take]
  exact Nat.min_le_left _ _

theorem count_le_add {α : Type} {p q r : α → Bool} {xs : List α} (h : ∀ x ∈ xs, p x = true → q x = true ∨ r x = true) :
    xs.countP p ≤ xs.countP q + xs.countP r := by
  induction xs with
  | nil => exact Nat.zero_le _
  | cons x xs ih =>
    have hrest := ih fun y hy => h y (mem_cons_of_mem x hy)
    have hx := h x mem_cons_self
    rw [countP_cons, countP_cons, countP_cons]
    cases hp : p x with
    | false =>
      rw [if_neg Bool.false_ne_true]
      omega
    | true =>
      rcases hx hp with hq | hr
      · rw [if_pos rfl, if_pos hq]
        omega
      · rw [if_pos rfl, if_pos hr]
        omega

theorem reserve_counts {p : Db → StockEntry → Bool}
    (h : update Db.stockT p (fun _ e => reservedFor itemId e) c s = .ok (n, t)) (j : Id) :
    heldCount t j ≤ heldCount s j + if itemId = j then s.stock.count (p s) else 0 := by
  obtain ⟨-, T, hT, rfl⟩ := update_ok h
  have hrows : T.rows = s.stock.rows.map fun e => if p s e then reservedFor itemId e else e := hT
  split
  · show T.rows.countP _ ≤ s.stock.rows.countP _ + s.stock.rows.countP _
    rw [hrows, countP_map]
    refine count_le_add fun e _ he => ?_
    rw [Function.comp_apply] at he
    split at he
    · next hpe => exact .inr hpe
    · exact .inl he
  · next hne =>
    refine count_le_of_map hrows fun e _ he => ?_
    split at he
    · rw [reservedFor_heldBy, beq_iff_eq] at he
      exact absurd he hne
    · exact he

end Counts

/-! ## Statements that reserve nothing -/

def shelf (s : Db) := (s.items, s.stock)

def HeldLess (s t : Db) : Prop := ∀ itemId, heldCount t itemId ≤ heldCount s itemId

section Shelf

variable {s t : Db}

theorem HeldLess.of_eq (h : t.stock = s.stock) : HeldLess s t := by
  intro itemId
  unfold heldCount
  rw [h]

theorem keeps_heldLess (h : Keeps shelf st) : Within HeldLess st :=
  fun c s n t hst => .of_eq (congrArg snd (h c s n t hst))

theorem releaseSale_heldLess (orderId : Id) : Within HeldLess (releaseSaleStatement orderId) := by
  intro c s n t h itemId
  obtain ⟨-, T, hT, rfl⟩ := update_ok h
  refine count_le_of_map hT fun e _ he => ?_
  split at he
  · unfold StockEntry.heldBy releasedEntry at he
    cases he
  · exact he

theorem batch_heldLess (h : ∀ st ∈ sts, Within HeldLess st) {c : Nat} {ns : List Nat}
    (hb : batch sts c s = .ok (ns, t)) : HeldLess s t :=
  batch_within (fun _ _ => le_rfl) (fun _ _ _ h h' itemId => (h' itemId).trans (h itemId)) h hb

theorem DeliveryMove.heldLess (h : DeliveryMove C s t) : HeldLess s t := by
  intro itemId
  obtain ⟨f, hf, hrows⟩ := h.stock
  refine count_le_of_map hrows fun e _ he => ?_
  unfold StockEntry.heldBy at he ⊢
  rw [(hf e).item] at he
  rcases (hf e).status with hs | ⟨hr, -⟩
  · rw [hs] at he
    exact he
  · rw [Bool.and_eq_true] at he
    rw [he.1, hr]
    rfl

theorem WithinQuantity.less (hs : WithinQuantity s) (h : HeldLess s t) (hkept : SaleKept s t) : WithinQuantity t :=
  fun itemId => (h itemId).trans ((hs itemId).trans (hkept.quantity itemId))

end Shelf

theorem shelf_off : OffPromotion shelf := by constructor <;> exact fun _ _ => rfl

theorem RefundStmt.shelf_kept (h : RefundStmt st) : Keeps shelf st :=
  h.keeps (fun _ h => h.keeps (by constructor <;> exact fun _ _ => rfl))
    shelf_off (fun _ _ => rfl) (fun _ _ => rfl) fun _ _ => rfl

theorem FulfillStmt.shelf_kept {orderId : Id} {items : List OrderItem} (h : FulfillStmt orderId items st) :
    (∃ i ∈ items, st = reserveStockStatement i) ∨ Keeps shelf st := by
  cases h with
  | reserve i hi _ => exact .inl ⟨i, hi, rfl⟩
  | delivery i _ ids now => exact .inr (insertDelivery_keeps fun _ _ => rfl)
  | supplierOrder i _ ids now => exact .inr (insert_off rfl)
  | newEntitlement g => exact .inr (insert_off rfl)
  | newGrant g => exact .inr (insert_off rfl)
  | activation item now asset st h =>
    exact .inr (activateEntitlementGrantStatements_keep ⟨fun _ _ => rfl, fun _ _ => rfl⟩ item now asset st h)
  | download i _ _ st h =>
    simp only [downloadStatements, mem_cons, not_mem_nil, or_false] at h
    rcases h with rfl | rfl
    · exact .inr (insert_off rfl)
    · exact .inr (update_off rfl)
  | request i _ ids st h =>
    unfold requestStatements at h
    split at h
    · simp only [mem_cons, not_mem_nil, or_false] at h
      rcases h with rfl | rfl <;> exact .inr (insert_off rfl)
    split at h
    · cases h
    · rw [mem_singleton.mp h]
      exact .inr (insert_off rfl)

/-! ## The batches of the shop -/

section Batches

variable {τ : Type} {S : Spec Db Site τ} {A : ShopOrderStatus → Prop} {s t u : Db} {ns : List Nat}

theorem updateAttempts_shelf (p : Db → PaymentAttempt → Bool) (f : Db → PaymentAttempt → PaymentAttempt) :
    Keeps shelf (updateAttempts p f) :=
  updateAttempts_keeps shelf_off (fun _ _ => rfl) fun _ _ => rfl

theorem updateOrders_shelf (p : Db → ShopOrder → Bool) (f : Db → ShopOrder → ShopOrder) :
    Keeps shelf (updateOrders p f) :=
  updateOrders_keeps shelf_off fun _ _ => rfl

theorem ShopBatch.shelf_kept (h : ShopBatch S A x sts t) (hpays : ¬x.pays) (hcheckout : ¬x.isCheckout) :
    ∀ st ∈ sts, (∃ orderId, st = releaseSaleStatement orderId) ∨ Keeps shelf st := by
  intro st hst
  cases h with
  | orderPayment => exact absurd trivial hpays
  | freeOrder => exact absurd trivial hpays
  | walletOrder => exact absurd trivial hpays
  | checkout => exact absurd trivial hcheckout
  | transition order toStatus now _ _ _ =>
    simp only [transitionBatch, mem_cons, not_mem_nil, or_false] at hst
    rcases hst with rfl | rfl | rfl | rfl
    · exact .inr (updateOrders_shelf _ _)
    · exact .inr (insert_off rfl)
    · exact .inr (insert_off rfl)
    · exact .inl ⟨_, rfl⟩
  | receipt channelId attemptId event =>
    rw [mem_singleton.mp hst]
    exact .inr (insert_off rfl)
  | reject channelId attemptId event code now =>
    simp only [rejectBatch, mem_cons, not_mem_nil, or_false] at hst
    rcases hst with rfl | rfl
    · exact .inr (insert_off rfl)
    · exact .inr (update_off rfl)
  | failed channelId attempt event now =>
    simp only [failedPaymentBatch, mem_append, mem_cons, not_mem_nil, or_false] at hst
    rcases hst with (rfl | rfl) | hst
    · exact .inr (insert_off rfl)
    · exact .inr (updateAttempts_shelf _ _)
    · obtain ⟨topupId, -, rfl⟩ := map_eq_some_iff.mp (mem_toList.mp hst)
      exact .inr (update_off rfl)
  | topup channelId attemptId event topup now =>
    simp only [mem_cons, not_mem_nil, or_false] at hst
    rcases hst with rfl | rfl | rfl
    · exact .inr (insert_off rfl)
    · exact .inr (updateAttempts_shelf _ _)
    · exact .inr (update_off rfl)
  | reconcile attemptId now =>
    rw [mem_singleton.mp hst]
    exact .inr (update_off rfl)
  | expire orderId version now =>
    simp only [expireBatch, mem_cons, not_mem_nil, or_false] at hst
    rcases hst with rfl | rfl | rfl | rfl | rfl | rfl
    · exact .inr (updateOrders_shelf _ _)
    · exact .inr (update_off rfl)
    · exact .inr (update_off rfl)
    · exact .inr (updateAttempts_shelf _ _)
    · exact .inr (insert_off rfl)
    · exact .inl ⟨_, rfl⟩
  | cancelUnstarted orderId now =>
    rw [mem_singleton.mp hst]
    exact .inr (updateOrders_shelf _ _)
  | reserveBalance order user now _ =>
    simp only [insertHold, orderBalanceHoldValidate, orderBalanceHoldDebit, mem_append, mem_cons,
      not_mem_nil, or_false] at hst
    rcases hst with (rfl | rfl) | rfl | rfl | rfl
    · exact .inr abortWhen_keeps
    · exact .inr (insert_off rfl)
    · exact .inr (insert_off rfl)
    · exact .inr (update_off rfl)
    · exact .inr (insert_off rfl)
  | claimPayment input amount quote e =>
    simp only [claimAttemptBatch, attemptGuards, mem_append, mem_cons, not_mem_nil, or_false] at hst
    rcases hst with (rfl | rfl) | rfl
    · exact .inr abortWhen_keeps
    · exact .inr abortWhen_keeps
    · exact .inr (insert_off rfl)
  | paymentCreated attemptId paymentId now =>
    rw [mem_singleton.mp hst]
    exact .inr (updateAttempts_shelf _ _)
  | paymentFailed attemptId code now =>
    simp only [paymentCreationFailureStatements, mem_cons, not_mem_nil, or_false] at hst
    rw [hst]
    exact .inr (updateAttempts_shelf _ _)
  | mutateWallet input user after _ _ _ _ =>
    simp only [walletBatch, mem_cons, not_mem_nil, or_false] at hst
    rcases hst with rfl | rfl
    · exact .inr (update_off rfl)
    · exact .inr (onChanges_within fun _ => insert_off rfl)
  | settleReward orderId now =>
    rw [mem_singleton.mp hst]
    exact .inr (updateRewards_keeps (fun _ _ => rfl) (fun _ _ => rfl) fun _ _ => rfl)

theorem ShopBatch.fulfilling (h : ShopBatch S A x sts t) (hx : x.pays) :
    ∃ orderId items, S.Seen (fun s => orderItemsForFulfillment s orderId) items t ∧
      (saleCurrent x t → noneDelivered t orderId = true) ∧
      ∀ st ∈ sts, FulfillStmt orderId items st ∨ Keeps shelf st := by
  have hpaid : ∀ {orderId : Id} {version : Nat} {fulfillment : List (Stmt Db)} {items : List OrderItem} {e : PaymentEnv},
      orderFulfillmentStatements orderId items e.ids e.now = .ok fulfillment →
      ∀ st ∈ settleStatements orderId version fulfillment, FulfillStmt orderId items st ∨ Keeps shelf st := by
    intro orderId version fulfillment items e hful st hst
    simp only [settleStatements, mem_append, mem_cons, not_mem_nil, or_false] at hst
    rcases hst with hst | rfl | rfl
    · exact .inl (fulfillment_stmts hful st hst)
    · exact .inr (update_off rfl)
    · exact .inr (insert_off rfl)
  cases h with
  | orderPayment channelId event context order coupon fulfillment e _ _ _ hful =>
    obtain ⟨items, hseen, hful⟩ := hful
    refine ⟨order.id, items, hseen, id, fun st hst => ?_⟩
    simp only [orderPaymentBatch, mem_append, mem_cons, not_mem_nil, or_false] at hst
    rcases hst with (((rfl | rfl | rfl | rfl) | hst) | hst) | rfl | rfl
    · exact .inr (insert_off rfl)
    · exact .inr (updateAttempts_shelf _ _)
    · exact .inr (updateOrders_shelf _ _)
    · exact .inr (insertRequired_off rfl)
    · cases coupon with
      | none => cases hst
      | some k =>
        simp only [map_some, getD_some, reclaimCouponStatements, mem_cons, not_mem_nil,
          or_false] at hst
        rcases hst with rfl | rfl
        · exact .inr (update_off rfl)
        · exact .inr abortWhen_keeps
    · exact .inl (fulfillment_stmts hful st hst)
    · exact .inr (update_off rfl)
    · exact .inr (insert_off rfl)
  | freeOrder order fulfillment e _ hful =>
    obtain ⟨items, hseen, hful⟩ := hful
    refine ⟨order.id, items, hseen, id, fun st hst => ?_⟩
    simp only [freeOrderBatch, mem_append, mem_cons, not_mem_nil, or_false] at hst
    rcases hst with (rfl | rfl) | hst
    · exact .inr (updateOrders_shelf _ _)
    · exact .inr (insert_off rfl)
    · exact hpaid hful st hst
  | walletOrder w user fulfillment e _ _ hful =>
    obtain ⟨items, hseen, hful⟩ := hful
    refine ⟨w.order.id, items, hseen, id, fun st hst => ?_⟩
    simp only [walletOrderBatch, walletSwaps, mem_append, mem_cons, not_mem_nil, or_false] at hst
    rcases hst with ((rfl | rfl | rfl) | rfl) | hst
    · exact .inr (update_off rfl)
    · exact .inr (onChanges_within fun _ => insert_off rfl)
    · exact .inr (updateOrders_shelf _ _)
    · exact .inr (insert_off rfl)
    · exact hpaid hful st hst
  | _ => exact hx.elim

end Batches

/-! ## Reservations -/

structure Reservable (items : List OrderItem) (s : Db) : Prop where
  within : WithinQuantity s
  there : ∀ i ∈ items, s.items.get? i.item.id = some i.item
  free : ∀ i ∈ items, ∀ e ∈ s.stock.rows, e.status = .delivered → e.orderItemId ≠ some i.item.id

section Reservations

variable {items : List OrderItem} {orderId : Id} {s t : Db} {c n : Nat} {ns : List Nat}

theorem WithinQuantity.of_shelf (h : WithinQuantity s) (hshelf : shelf t = shelf s) : WithinQuantity t := by
  obtain ⟨hitems, hstock⟩ := mk.injEq .. ▸ hshelf
  intro itemId
  have hwithin := h itemId
  unfold heldCount quantityOf at hwithin ⊢
  rw [hitems, hstock]
  exact hwithin

section

variable (h : Reservable items s)
include h

theorem Reservable.of_shelf (hshelf : shelf t = shelf s) : Reservable items t := by
  obtain ⟨hitems, hstock⟩ := mk.injEq .. ▸ hshelf
  refine ⟨h.within.of_shelf hshelf, fun i hi => ?_, fun i hi e he => ?_⟩
  · rw [hitems]
    exact h.there i hi
  · rw [hstock] at he
    exact h.free i hi e he

theorem Reservable.heldCount (hi : i ∈ items) : heldCount s i.item.id = reservedCount s i.item.id := by
  rw [heldCount_eq, Table.count_eq_zero.mpr, Nat.add_zero]
  intro e he
  rw [Bool.and_eq_false_iff]
  by_cases hs : e.status = .delivered
  · exact .inl (beq_eq_false_iff_ne.mpr (h.free i hi e he hs))
  · exact .inr (beq_eq_false_iff_ne.mpr hs)

theorem Reservable.reserve (hi : i ∈ items) (hst : reserveStockStatement i c s = .ok (n, t)) :
    Reservable items t := by
  have hcounts := reserve_counts hst
  obtain ⟨-, T, hT, rfl⟩ := update_ok hst
  refine ⟨fun itemId => (hcounts itemId).trans ?_, h.there, fun j hj e he hdelivered => ?_⟩
  · have hwithin := h.within itemId
    show _ ≤ quantityOf s itemId
    split
    · next heq =>
      subst heq
      have hquantity : quantityOf s i.item.id = i.item.quantity := by
        unfold quantityOf
        rw [h.there i hi]
        rfl
      have hheld := h.heldCount hi
      have htaken : s.stock.count (fun e => (firstAvailable s i.item.deliveryComponentId
          (i.item.quantity - reservedCount s i.item.id)).contains e.id &&
          (i.supplierFallback || decide (i.item.quantity ≤
            (availableEntries s i.item.deliveryComponentId).length + reservedCount s i.item.id))) ≤
          i.item.quantity - reservedCount s i.item.id := by
        refine le_trans (countP_mono_left fun e _ he => ?_)
          ((count_contains_le s _).trans (firstAvailable_length s i.item.deliveryComponentId _))
        exact (Bool.and_eq_true _ _ ▸ he).1
      omega
    · exact hwithin
  · have hrows : T.rows = s.stock.rows.map _ := hT
    rw [show (Db.stockT.set s T).stock.rows = T.rows from rfl, hrows] at he
    obtain ⟨e', he', rfl⟩ := mem_map.mp he
    split at hdelivered
    · cases hdelivered
    · next hmiss =>
      rw [if_neg hmiss]
      exact h.free j hj e' he' hdelivered

theorem Reservable.batch (hsts : ∀ st ∈ sts, FulfillStmt orderId items st ∨ Keeps shelf st)
    (hb : batch sts c s = .ok (ns, t)) : Reservable items t := by
  refine batch_within (R := fun s t => Reservable items s → Reservable items t) (fun _ h => h)
    (fun _ _ _ hab hbc ha => hbc (hab ha)) (fun st hst c s n t hst' hs => ?_) hb h
  rcases hsts st hst with hful | hkeep
  · rcases hful.shelf_kept with ⟨i, hi, rfl⟩ | hkeep
    · exact hs.reserve hi hst'
    · exact hs.of_shelf (hkeep c s n t hst')
  · exact hs.of_shelf (hkeep c s n t hst')

end

theorem reservable_of_free (hwithin : WithinQuantity t) {r : Db} (hr : SaleKept r t)
    (hfree : noneDelivered t orderId = true) : Reservable (orderItemsForFulfillment r orderId) t := by
  have hthere : ∀ i ∈ orderItemsForFulfillment r orderId,
      t.items.get? i.item.id = some i.item ∧ i.item.orderId = orderId := by
    intro i hi
    unfold orderItemsForFulfillment at hi
    obtain ⟨row, hrow, hi⟩ := mem_filterMap.mp hi
    split at hi
    · next horder =>
      obtain ⟨psi, -, rfl⟩ := map_eq_some_iff.mp hi
      exact ⟨hr.item (mem_get? hrow), horder⟩
    · cases hi
  refine ⟨hwithin, fun i hi => (hthere i hi).1, fun i hi e he hdelivered hitem => ?_⟩
  unfold noneDelivered at hfree
  rw [Bool.not_eq_true', exist_false_iff] at hfree
  have hnone := hfree e he
  rw [hdelivered, hitem, any_some, itemOf_iff.mpr ⟨i.item, hthere i hi⟩] at hnone
  cases hnone

theorem WithinQuantity.newItem (h : WithinQuantity s) {item : ShopOrderItem} {T : Table ShopOrderItem}
    (hT : T.rows = s.items.rows ++ [item]) :
    heldCount s item.id = 0 ∧ ∀ itemId, quantityOf (Db.itemsT.set s T) itemId =
      if itemId = item.id then item.quantity else quantityOf s itemId := by
  constructor
  · have hheld := h item.id
    unfold quantityOf at hheld
    rw [show s.items.get? item.id = none from get?_append_free hT] at hheld
    exact Nat.le_zero.mp hheld
  · intro itemId
    unfold quantityOf
    rw [show (Db.itemsT.set s T).items.get? itemId = _ from get?_append_one hT itemId]
    show ((if itemId = item.id then some item else s.items.get? itemId).map _).getD 0 = _
    split
    · rfl
    · rfl

theorem lineStatements_within {item : ShopOrderItem} (h : WithinQuantity s)
    (hb : batch (lineStatements q capacity item) c s = .ok (ns, t)) : WithinQuantity t := by
  unfold lineStatements at hb
  obtain ⟨_, s3, _, hb, hassets, -⟩ := batch_append_ok hb
  obtain ⟨_, s2, _, hb, hreserve, -⟩ := batch_append_ok hb
  obtain ⟨_, s1, _, hguards, hinsert, -⟩ := batch_append_ok hb
  have h1 : WithinQuantity s1 := by
    refine h.of_shelf (batch_keeps (fun st hst => ?_) hguards)
    exact each_two abortWhen_keeps abortWhen_keeps _ hst
  have h3 : shelf t = shelf s3 := by
    refine batch_keeps (fun st hst => ?_) hassets
    split at hst
    · rw [mem_singleton.mp hst]
      exact insert_off rfl
    · cases hst
  obtain ⟨_, hinsert, -⟩ := batch_single_ok hinsert
  obtain ⟨-, T, hT, rfl⟩ := insert_abort_ok hinsert
  obtain ⟨hempty, hquantity⟩ := h1.newItem hT
  refine WithinQuantity.of_shelf (s := s3) (fun itemId => ?_) h3
  have hbefore : heldCount s1 itemId ≤ quantityOf s1 itemId := h1 itemId
  split at hreserve
  · obtain ⟨_, hreserve, -⟩ := batch_single_ok hreserve
    have hcounts := reserve_counts hreserve itemId
    have hsame : quantityOf s3 itemId = quantityOf (Db.itemsT.set s1 T) itemId := by
      obtain ⟨-, U, -, rfl⟩ := update_ok hreserve
      rfl
    have htaken : s1.stock.count (fun e => (firstAvailable (Db.itemsT.set s1 T) item.deliveryComponentId
        item.quantity).contains e.id) ≤ item.quantity :=
      (count_contains_le s1 _).trans (firstAvailable_length _ _ _)
    refine hcounts.trans ?_
    rw [hsame, hquantity]
    show heldCount s1 itemId + (if item.id = itemId then s1.stock.count _ else 0) ≤ _
    by_cases hid : itemId = item.id
    · subst hid
      rw [if_pos rfl, if_pos rfl, hempty]
      omega
    · rw [if_neg (Ne.symm hid), if_neg hid]
      omega
  · obtain ⟨-, rfl⟩ := batch_nil_ok hreserve
    rw [hquantity]
    show heldCount s1 itemId ≤ _
    by_cases hid : itemId = item.id
    · rw [if_pos hid, hid, hempty]
      exact Nat.zero_le _
    · rw [if_neg hid]
      exact hbefore

theorem checkoutBatch_within {coupon : Option (Coupon × Nat)} (h : WithinQuantity s)
    (hb : batch (checkoutBatch q capacity coupon) c s = .ok (ns, t)) : WithinQuantity t := by
  unfold checkoutBatch at hb
  obtain ⟨_, s3, _, hb, hredemption, -⟩ := batch_append_ok hb
  obtain ⟨_, s2, _, hb, hevent, -⟩ := batch_append_ok hb
  obtain ⟨_, s1, _, horder, hlines, -⟩ := batch_append_ok hb
  have h1 : WithinQuantity s1 := by
    refine h.of_shelf (batch_keeps (fun st hst => ?_) horder)
    unfold orderStatements at hst
    split at hst
    · rw [mem_singleton.mp hst]
      exact insert_off rfl
    · exact each_two (update_off rfl) (onChanges_within fun _ => insert_off rfl) _ hst
  -- line by line
  have h2 : ∀ (lines : List ShopOrderItem) {c s t ns}, WithinQuantity s →
      batch (lines.flatMap (lineStatements q capacity)) c s = .ok (ns, t) → WithinQuantity t := by
    intro lines
    induction lines with
    | nil =>
      intro c s t ns hs hb
      simp only [flatMap_nil, batch_nil, Except.ok.injEq, mk.injEq] at hb
      exact hb.2 ▸ hs
    | cons line lines ih =>
      intro c s t ns hs hb
      rw [flatMap_cons] at hb
      obtain ⟨_, m, _, hline, hrest, -⟩ := batch_append_ok hb
      exact ih (lineStatements_within hs hline) hrest
  have h3 : WithinQuantity s3 := by
    refine (h2 _ h1 hlines).of_shelf (batch_keeps (fun st hst => ?_) hevent)
    rw [mem_singleton.mp hst]
    exact insert_off rfl
  refine h3.of_shelf (batch_keeps (fun st hst => ?_) hredemption)
  cases coupon with
  | none => cases hst
  | some k =>
    simp only [map_some, getD_some, redemptionStatements, mem_append, mem_cons,
      not_mem_nil, or_false] at hst
    rcases hst with (rfl | rfl) | hst
    · exact abortWhen_keeps
    · exact insert_off rfl
    · split at hst
      · cases hst
      · rw [mem_singleton.mp hst]
        exact update_off rfl

end Reservations

/-! ## The calls side by side -/

inductive SaleCall where
  | shop (c : ShopCall)
  | delivery (c : DeliveryCall)
  | refund (c : RefundCall)

def SaleCall.code : SaleCall → Call Site Unit
  | .shop c => c.code
  | .delivery c => c.code.void
  | .refund c => c.code.void

def saleSpec : Spec Db Site Empty :=
  .ofRel WithinQuantity saleCurrent (fun _ _ => True) SaleKept (fun _ => trivial) .refl fun _ _ _ => .trans

theorem sale_admits (hi : WithinQuantity s) (h : SaleKept s t) (hless : HeldLess s t) : saleSpec.Admits ∅ ∅ s t :=
  Spec.admits_ofRel (hi.less hless h) trivial fun _ => h

theorem sale_admitsShop : AdmitsShop saleSpec fun _ => True := by
  intro x sts t ns u h hi hc hb
  have hkept : SaleKept t u :=
    batch_within .refl (fun _ _ _ => .trans) (fun st hst => store_saleKept (h.stmts st hst).store) hb
  have hwithin : WithinQuantity u := by
    by_cases hpays : x.pays
    · obtain ⟨orderId, items, ⟨r, -, hr, rfl⟩, hcond, hsts⟩ := h.fulfilling hpays
      exact ((reservable_of_free hi hr (hcond hc)).batch hsts hb).within
    by_cases hcheckout : x.isCheckout
    · cases h with
      | checkout q customer capacity coupon _ _ _ => exact checkoutBatch_within hi hb
      | _ => exact hcheckout.elim
    · refine hi.less (batch_heldLess (fun st hst => ?_) hb) hkept
      rcases h.shelf_kept hpays hcheckout st hst with ⟨orderId, rfl⟩ | hkeep
      · exact releaseSale_heldLess orderId
      · exact keeps_heldLess hkeep
  exact Spec.admits_ofRel hwithin trivial fun _ => hkept

theorem DeliveryMove.sale (h : DeliveryMove C s t) (hi : WithinQuantity s) :
    saleSpec.Admits ∅ ∅ s t := sale_admits hi h.saleKept h.heldLess

theorem sale_delivery : DeliverySteps saleSpec fun _ _ _ _ => True where
  link _ _ _ _ _ _ _ _ := trivial
  stable _ _ _ _ _ _ _ := trivial
  idle _ _ _ hi _ h := (h.move (C := PlainContent)).sale hi
  upgrade _ _ _ _ _ _ _ hi _ _ hb := (batch_deliveryMove upgradeBatch_move hb).sale hi
  agent _ _ _ _ _ _ hi _ _ hb := (batch_deliveryMove agentBatch_move hb).sale hi
  process _ _ _ _ _ _ _ hi _ _ _ _ hb := (batch_deliveryMove deliverBatch_move hb).sale hi
  start _ _ _ _ _ hi _ _ _ hb := (batch_deliveryMove startManualBatch_move hb).sale hi
  complete _ _ _ _ _ _ _ hi _ _ _ hb := (batch_deliveryMove completeManualBatch_move hb).sale hi

theorem sale_refund (c : RefundCall) (s : Db) : Bare saleSpec c.code s := by
  refine c.only.bare (R := fun s t => shelf t = shelf s) (fun _ => rfl) (fun _ _ _ h h' => h'.trans h)
    (fun _ hst => hst.shelf_kept) (fun s t hi h => ?_) s
  have hshelf := mk.injEq .. ▸ h
  refine sale_admits hi ⟨⟨[], by rw [hshelf.1, append_nil]⟩, fun _ _ => ?_⟩ (.of_eq hshelf.2)
  exact (EntriesHeld.of_eq hshelf.2).delivered

theorem SaleCall.bare (c : SaleCall) (s : Db) : Bare saleSpec c.code s := by
  cases c with
  | shop c => exact ShopCall.bare sale_admitsShop c (by cases c <;> trivial) s
  | delivery c => exact (DeliveryCall.bare sale_delivery c s).void
  | refund c => exact (sale_refund c s).void

/-! ## Runs -/

/-- In every run whose orders are paid while nothing is delivered to them: an entry is held by one item, no item holds
more entries than its quantity, and what is delivered stays with its item. -/
theorem stock_sold_once {s : Db} (hs : WithinQuantity s) {w : World Db Site DomainError Unit}
    (hrun : Runs SaleCall.code saleCurrent ⟨s, []⟩ w) :
    (∀ e ∈ w.db.stock.rows, ∀ i j, e.heldBy i = true → e.heldBy j = true → i = j) ∧
      (∀ i ∈ w.db.items.rows, heldCount w.db i.id ≤ i.quantity) ∧
      ∀ w', Runs SaleCall.code saleCurrent w w' → DeliveredKept w.db w'.db := by
  have hcode : ∀ c s, saleSpec.inv s → Ok saleSpec anyEnd (SaleCall.code c) ∅ s := fun c s _ => (c.bare s).ok
  obtain ⟨hgood, -⟩ := Runs.sound saleSpec hcode hrun (good_idle saleSpec hs)
  have hwithin : WithinQuantity w.db := hgood.1
  refine ⟨fun e _ i j hi hj => ?_, fun i hi => ?_, fun w' hlater => ?_⟩
  · unfold StockEntry.heldBy at hi hj
    rw [Bool.and_eq_true, beq_iff_eq] at hi hj
    exact some.inj (hi.1.symm.trans hj.1)
  · have hheld := hwithin i.id
    unfold quantityOf at hheld
    rwa [show w.db.items.get? i.id = some i from mem_get? hi] at hheld
  · obtain ⟨-, hkept⟩ := Runs.sound saleSpec hcode hlater hgood
    have hkept : SaleKept w.db w'.db := hkept
    exact hkept.delivered

/-! ## Two runs -/

def freeCodeDb : Db where
  orders := .ok [{ id := 1, status := .pendingPayment, version := 1, totalMinor := 0 }]
  items := .ok [{ id := 1, orderId := 1, sellableItemId := 1, deliveryComponentId := 1
                  deliveryComponentType := .stock, quantity := 1 }]
  sellableItems := .ok [{ id := 1 }]
  stock := .ok [{ id := 10, sellableItemId := 1, status := .available },
                { id := 11, sellableItemId := 1, status := .available }]

def completeFreeCode (id : Id) : SaleCall := .shop (.completeFree 1 none ⟨5, fun _ => ⟨id, id, id, id⟩⟩)

def deliverCode : SaleCall := .delivery (.process 1 (offlineEnv 6))

def soldOnceMoves : List (Move SaleCall) :=
  Move.start (completeFreeCode 1) :: List.replicate 4 (Move.run 0) ++ Move.start deliverCode :: List.replicate 8 (Move.run 1)

/-- A second completion has read the order before the first commits, and commits after the delivery. -/
def soldTwiceMoves : List (Move SaleCall) :=
  [Move.start (completeFreeCode 1), Move.start (completeFreeCode 2)] ++ List.replicate 2 (Move.run 1) ++
    List.replicate 4 (Move.run 0) ++ Move.start deliverCode :: List.replicate 8 (Move.run 2) ++ List.replicate 4 (Move.run 1)

theorem freeCode_within : WithinQuantity freeCodeDb := by
  intro itemId
  have havailable : ∀ e ∈ freeCodeDb.stock.rows, e.status = .available := by decide
  have hnone : heldCount freeCodeDb itemId = 0 :=
    count_eq_zero.mpr fun e he => StockEntry.heldBy_available (havailable e he)
  rw [hnone]
  exact Nat.zero_le _

def soldOnceRun : World Db Site DomainError Unit :=
  World.exec SaleCall.code saleCurrent ⟨freeCodeDb, []⟩ soldOnceMoves

theorem stock_sold_once_soldOnceRun :
    heldCount soldOnceRun.db 1 = 1 ∧ (∀ i ∈ soldOnceRun.db.items.rows, heldCount soldOnceRun.db i.id ≤ i.quantity) ∧
      ∀ w', Runs SaleCall.code saleCurrent soldOnceRun w' → Delivered w'.db 10 1 := by
  have hrun : Runs SaleCall.code saleCurrent ⟨freeCodeDb, []⟩ soldOnceRun := World.exec_runs _ _ _ _
  obtain ⟨-, hcounts, hkept⟩ := stock_sold_once freeCode_within hrun
  refine ⟨by decide, hcounts, fun w' hlater => hkept w' hlater 10 1 ?_⟩
  exact ⟨{ id := 10, sellableItemId := 1, status := .delivered, orderItemId := some 1 }, by decide, rfl, rfl⟩

def soldTwiceRun : World Db Site DomainError Unit :=
  World.exec SaleCall.code anySite ⟨freeCodeDb, []⟩ soldTwiceMoves

/-- The late completion reserves a second code for the item. -/
theorem not_stock_sold_once :
    ¬∀ s, WithinQuantity s → ∀ w : World Db Site DomainError Unit, Runs SaleCall.code anySite ⟨s, []⟩ w →
      (∀ e ∈ w.db.stock.rows, ∀ i j, e.heldBy i = true → e.heldBy j = true → i = j) ∧
        (∀ i ∈ w.db.items.rows, heldCount w.db i.id ≤ i.quantity) ∧
        ∀ w', Runs SaleCall.code anySite w w' → DeliveredKept w.db w'.db := by
  intro h
  obtain ⟨-, hcounts, -⟩ := h freeCodeDb freeCode_within soldTwiceRun (World.exec_runs _ _ _ _)
  exact absurd hcounts (by decide)

end Gmshop
