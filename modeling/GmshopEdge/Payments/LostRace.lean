import GmshopEdge.Lib.Grows
import GmshopEdge.Lib.Lists
import GmshopEdge.Orders.PaidEvent
import GmshopEdge.Stock.Moves
import GmshopEdge.Lib.Checked

/-!
# Payments that lose their race

A batch that pays an order swaps the order's status and version, and commits whether or not the swap finds the order.
What comes behind the swap asks for a paid order, but for three statements: the reservation of stock, the failure of
downloads without assets and the consumption of the redemption run in any case. A completion that lost its race leaves no
trace exactly when these find nothing to do (`PayingBatch.traceless`).
-/

namespace Gmshop

open List Sql Stmt Table Except Prod

/-! ## The batches -/

inductive PayingBatch where
  | completeFree (order : ShopOrder)
  | completeWallet (order : ShopOrder) (user : User)
  | paymentEvent (channelId attemptId : Id) (event : PaymentEvent) (order : ShopOrder) (coupon : Option Id)

def PayingBatch.order : PayingBatch → ShopOrder
  | .completeFree order => order
  | .completeWallet order _ => order
  | .paymentEvent _ _ _ order _ => order

def PayingBatch.statements (fulfillment : List (Stmt Db)) (now : Time) : PayingBatch → List (Stmt Db)
  | .completeFree order => freeOrderBatch order.id order.version fulfillment now
  | .completeWallet order user =>
    walletOrderBatch order user.id user.balanceMinor user.balanceVersion fulfillment now
  | .paymentEvent channelId attemptId event order coupon =>
    orderPaymentBatch channelId attemptId event order coupon fulfillment now

def PayingBatch.lost (counts : List Nat) : PayingBatch → Prop
  | .completeFree _ => counts.headD 0 < 1
  | .completeWallet _ _ => counts.headD 0 < 1
  | .paymentEvent .. => (counts[2]?).getD 0 < 1

/-- Stock, redemptions and coupons, wallets, deliveries and the events of orders. -/
def raceRows (s : Db) := (s.stock, s.redemptions, s.coupons, s.users, s.walletEntries, s.deliveries, s.events)

/-! ## What is not guarded -/

def reserveHits (i : OrderItem) (s : Db) (e : StockEntry) : Bool :=
  (firstAvailable s i.item.deliveryComponentId (i.item.quantity - reservedCount s i.item.id)).contains e.id &&
    (i.supplierFallback || decide (i.item.quantity ≤
      (availableEntries s i.item.deliveryComponentId).length + reservedCount s i.item.id))

def downloadFails (item : ShopOrderItem) (s : Db) (d : DeliveryRecord) : Bool :=
  d.orderItemId == item.id && d.status == .pending && !(s.downloadAssets.exist fun a => a.orderItemId == item.id)

/-- The fulfilment of an order that is not its own finds nothing to do. -/
structure FulfilsNothing (orderId : Id) (items : List OrderItem) (s : Db) : Prop where
  unpaid : items = [] ∨ s.orderIs orderId (·.status == .paid) = false
  stock : ∀ i ∈ items, i.localStock = true → ∀ e ∈ s.stock.rows, reserveHits i s e = false
  downloads : ∀ i ∈ items, i.item.deliveryComponentType = .download →
    ∀ d ∈ s.deliveries.rows, downloadFails i.item s d = false

/-- The order was not paid at the version that the call meant, and there is nothing to fulfil or to consume. -/
structure SettlesNothing (order : ShopOrder) (items : List OrderItem) (s : Db) : Prop where
  event : s.orderIs order.id (paidAt (order.version + 1)) = false
  fulfillment : FulfilsNothing order.id items s
  redemption : ∀ cr ∈ s.redemptions.rows, cr.orderId = order.id → cr.status ≠ .reserved

/-- The condition. The event of a payment is required, so its batch commits only where the order stands paid without it;
the order of a wallet payment must not be there to be paid by a debit of another call. -/
def PayingBatch.traceless (items : List OrderItem) (s : Db) : PayingBatch → Prop
  | .completeFree order => SettlesNothing order items s
  | .completeWallet order _ => SettlesNothing order items s ∧ ∀ o ∈ s.orders.rows,
      (orderCas order.id .pendingPayment order.version o &&
        s.walletEntries.exist fun w => w.idempotencyKey == .shopOrder order.id) = false
  | .paymentEvent _ _ _ order _ => s.orderIs order.id (paidAt (order.version + 1)) = false

/-! ## Fulfilments -/

def takenCount (t : Table StockEntry) : Nat := t.count (·.status != .available)

def begunCount (t : Table DeliveryRecord) : Nat := t.rows.length + t.count (·.status != .pending)

def besideFulfillment (s : Db) := (s.orders, s.redemptions, s.coupons, s.users, s.walletEntries, s.events)

/-- A fulfilment takes entries, adds records and fails downloads; assets are added for a paid order only. -/
structure Fulfilled (orderId : Id) (s t : Db) : Prop where
  beside : besideFulfillment t = besideFulfillment s
  assets : s.orderIs orderId (·.status == .paid) = false → t.downloadAssets = s.downloadAssets
  stock : Grew Db.stock takenCount s t
  deliveries : Grew Db.deliveries begunCount s t

variable {st : Stmt Db} {i : OrderItem} {now : Time} {ids : Id → ItemIds} {sts : List (Stmt Db)}
  {type : OrderEventType} {orderId : Id}

section Fulfilments

variable {orderId : Id} {items : List OrderItem} {s t u : Db} {c n : Nat}

theorem Fulfilled.orders (h : Fulfilled orderId s t) : t.orders = s.orders := congrArg fst h.beside

theorem Fulfilled.refl (s : Db) : Fulfilled orderId s s := ⟨rfl, fun _ => rfl, .refl s, .refl s⟩

theorem Fulfilled.trans (h : Fulfilled orderId s t) (h' : Fulfilled orderId t u) : Fulfilled orderId s u := by
  refine ⟨h'.beside.trans h.beside, fun hunpaid => ?_, h.stock.trans h'.stock, h.deliveries.trans h'.deliveries⟩
  have hunpaid' : t.orderIs orderId (·.status == .paid) = false := by
    unfold Db.orderIs at hunpaid ⊢
    rw [h.orders]
    exact hunpaid
  exact (h'.assets hunpaid').trans (h.assets hunpaid)

theorem keeps_fulfilled (h : Keeps (fun s => (besideFulfillment s, s.downloadAssets, s.stock, s.deliveries)) st) :
    Within (Fulfilled orderId) st := by
  intro c s n t hst
  have hsame := h c s n t hst
  simp only [Prod.mk.injEq] at hsame
  obtain ⟨hbeside, hassets, hstock, hdeliveries⟩ := hsame
  exact ⟨hbeside, fun _ => hassets, .inl hstock, .inl hdeliveries⟩

/-! ### Reservations -/

theorem reserveHits_available {e : StockEntry} (he : e ∈ s.stock.rows) (h : reserveHits i s e = true) :
    e.status = .available :=
  firstAvailable_available he (Bool.and_eq_true _ _ ▸ h).1

theorem reserve_same_iff (h : reserveStockStatement i c s = .ok (n, t)) :
    t.stock = s.stock ↔ ∀ e ∈ s.stock.rows, reserveHits i s e = false := by
  refine update_same_iff (T := Db.stockT) (p := reserveHits i) h fun e he hhit hsame => ?_
  have hstatus : (reservedFor i.item.id e).status = .reserved := rfl
  rw [hsame, reserveHits_available he hhit] at hstatus
  cases hstatus

theorem reserve_grew (h : reserveStockStatement i c s = .ok (n, t)) : Grew Db.stock takenCount s t := by
  by_cases hnone : ∀ e ∈ s.stock.rows, reserveHits i s e = false
  · exact .inl ((reserve_same_iff h).mpr hnone)
  · right
    simp only [not_forall, Bool.not_eq_false] at hnone
    obtain ⟨e, he, hhit⟩ := hnone
    obtain ⟨-, T, hT, rfl⟩ := update_ok h
    have hrows : T.rows = s.stock.rows.map fun e => if reserveHits i s e then reservedFor i.item.id e else e := hT
    show s.stock.rows.countP _ < T.rows.countP _
    rw [hrows]
    refine countP_lt_map (fun x _ hx => ?_) he ?_ ?_
    · split
      · rfl
      · exact hx
    · rw [reserveHits_available he hhit]
      rfl
    · rw [if_pos hhit]
      rfl

/-! ### Records -/

theorem unpaid_iff : s.orderIs orderId (·.status == .paid) = false ↔
    ∀ o, s.orders.get? orderId = some o → (o.status == .paid) = false := by
  rw [← Bool.not_eq_true, orderIs_iff]
  simp only [not_exists, not_and, Bool.not_eq_true]

theorem updateDeliveries_begun {p : Db → DeliveryRecord → Bool} {f : Db → DeliveryRecord → DeliveryRecord}
    (hf : ∀ s d, (f s d).status = d.status) : Keeps (fun s => begunCount s.deliveries) (update Db.deliveriesT p f) := by
  intro c s n t h
  obtain ⟨-, T, hT, rfl⟩ := update_ok h
  have hrows : T.rows = s.deliveries.rows.map fun d => if p s d then f s d else d := hT
  have hcount : T.count (·.status != .pending) = s.deliveries.count (·.status != .pending) := by
    refine count_eq_of_map hrows fun d _ => ?_
    split
    · rw [hf]
    · rfl
  show T.rows.length + T.count _ = s.deliveries.rows.length + s.deliveries.count _
  rw [hcount, hrows, length_map]

theorem insertRecord_begun {r : DeliveryRecord}
    (h : insertRows Db.deliveriesT deliveryRedeemRouteSnapshot [r] s = .ok t) :
    begunCount s.deliveries < begunCount t.deliveries := by
  obtain ⟨_, s1, _, s2, hinsert, htrigger, hnil⟩ := insertRows_cons_ok h
  simp only [insertRows, ok.injEq] at hnil
  subst hnil
  obtain ⟨-, T, hT, rfl⟩ := insert_abort_ok hinsert
  have hrows : T.rows = s.deliveries.rows ++ [r] := hT
  have hroute : begunCount s2.deliveries = begunCount T := by
    refine batch_keeps (g := fun s => begunCount s.deliveries) (fun st hst => ?_) htrigger
    unfold deliveryRedeemRouteSnapshot at hst
    split at hst
    · rw [mem_singleton.mp hst]
      exact updateDeliveries_begun fun _ _ => rfl
    · cases hst
  rw [hroute]
  unfold begunCount
  rw [count_append hrows, hrows, length_append, length_singleton]
  omega

theorem delivery_cases {ids : ItemIds} (h : deliveryStatement orderId i ids now c s = .ok (n, t)) :
    t = s ∧ s.orderIs orderId (·.status == .paid) = false ∨ begunCount s.deliveries < begunCount t.deliveries := by
  unfold deliveryStatement insertDelivery at h
  have hrows := (insertEach_ok h).2
  by_cases hpaid : s.orderIs orderId (·.status == .paid) = true
  · obtain ⟨o, ho, hp⟩ := orderIs_iff.mp hpaid
    rw [fromOrder_some ho hp] at hrows
    exact .inr (insertRecord_begun hrows)
  · rw [Bool.not_eq_true] at hpaid
    rw [fromOrder_none ((unpaid_iff).mp hpaid)] at hrows
    simp only [insertRows, ok.injEq] at hrows
    exact .inl ⟨hrows.symm, hpaid⟩

def failDownloads (item : ShopOrderItem) : Stmt Db :=
  update Db.deliveriesT (downloadFails item)
    (fun _ d => { d with status := .failed, errorCode := some .downloadUnavailable, nextAttemptAt := none })

section

variable (item : ShopOrderItem) (h : failDownloads item c s = .ok (n, t))
include item h

theorem failDownloads_same_iff :
    t.deliveries = s.deliveries ↔ ∀ d ∈ s.deliveries.rows, downloadFails item s d = false := by
  refine update_same_iff (T := Db.deliveriesT) h fun d _ hfails hsame => ?_
  unfold downloadFails at hfails
  simp only [Bool.and_eq_true, beq_iff_eq] at hfails
  have hstatus := congrArg DeliveryRecord.status hsame
  rw [hfails.1.2] at hstatus
  cases hstatus

theorem failDownloads_grew : Grew Db.deliveries begunCount s t := by
  by_cases hnone : ∀ d ∈ s.deliveries.rows, downloadFails item s d = false
  · exact .inl ((failDownloads_same_iff item h).mpr hnone)
  · right
    simp only [not_forall, Bool.not_eq_false] at hnone
    obtain ⟨d, hd, hfails⟩ := hnone
    obtain ⟨-, T, hT, rfl⟩ := update_ok h
    have hrows : T.rows = s.deliveries.rows.map _ := hT
    have hpending : d.status = .pending := by
      unfold downloadFails at hfails
      simp only [Bool.and_eq_true, beq_iff_eq] at hfails
      exact hfails.1.2
    have hcount : s.deliveries.rows.countP (·.status != .pending) < T.rows.countP (·.status != .pending) := by
      rw [hrows]
      refine countP_lt_map (fun x _ hx => ?_) hd ?_ ?_
      · split
        · rfl
        · exact hx
      · rw [hpending]
        rfl
      · rw [if_pos hfails]
        rfl
    have hlength : T.rows.length = s.deliveries.rows.length := by rw [hrows, length_map]
    show s.deliveries.rows.length + s.deliveries.rows.countP _ < T.rows.length + T.rows.countP _
    omega

end

/-! ### Statement by statement -/

theorem FulfillStmt.fulfilled (h : FulfillStmt orderId items st) : Within (Fulfilled orderId) st := by
  cases h with
  | reserve i _ _ =>
    intro c s n t hst
    have hgrew := reserve_grew hst
    obtain ⟨-, T, -, rfl⟩ := update_ok hst
    exact ⟨rfl, fun _ => rfl, hgrew, .refl _⟩
  | delivery i _ ids now =>
    intro c s n t hst
    have hbeside : Keeps (fun s => (besideFulfillment s, s.downloadAssets, s.stock))
        (deliveryStatement orderId i ids now) := insertDelivery_keeps fun _ _ => rfl
    have hsame := hbeside c s n t hst
    simp only [Prod.mk.injEq] at hsame
    refine ⟨hsame.1, fun _ => hsame.2.1, .inl hsame.2.2, ?_⟩
    rcases delivery_cases hst with ⟨rfl, -⟩ | hlt
    · exact .refl _
    · exact .inr hlt
  | supplierOrder i _ ids now => exact keeps_fulfilled (insert_off rfl)
  | newEntitlement g => exact keeps_fulfilled (insert_off rfl)
  | newGrant g => exact keeps_fulfilled (insert_off rfl)
  | activation item now asset st h =>
    exact keeps_fulfilled
      (activateEntitlementGrantStatements_keep ⟨fun _ _ => rfl, fun _ _ => rfl⟩ item now asset st h)
  | download i _ _ st h =>
    refine each_two ?_ ?_ _ h
    · intro c s n t hst
      obtain ⟨-, T, hT, rfl⟩ := insert_ok hst
      refine ⟨rfl, fun hunpaid => ext_rows (hT.trans ?_), .refl _, .refl _⟩
      rw [hunpaid, if_neg Bool.false_ne_true]
      exact append_nil _
    · intro c s n t hst
      have hgrew : Grew Db.deliveries begunCount s t := failDownloads_grew i.item hst
      obtain ⟨-, T, -, rfl⟩ := update_ok hst
      exact ⟨rfl, fun _ => rfl, .refl _, hgrew⟩
  | request i _ ids st h =>
    unfold requestStatements at h
    split at h
    · refine each_two ?_ ?_ _ h <;> exact keeps_fulfilled (insert_off rfl)
    split at h
    · cases h
    · rw [mem_singleton.mp h]
      exact keeps_fulfilled (insert_off rfl)

theorem fulfillment_mem (h : orderFulfillmentStatements orderId items ids now = .ok sts) (hi : i ∈ items) :
    deliveryStatement orderId i (ids i.item.id) now ∈ sts ∧ (i.localStock = true → reserveStockStatement i ∈ sts) ∧
      (i.item.deliveryComponentType = .download → failDownloads i.item ∈ sts) := by
  unfold orderFulfillmentStatements at h
  cases hm : items.mapM fun i => fulfillmentStatements orderId i (ids i.item.id) now with
  | error a => simp [hm, bind, Except.bind] at h
  | ok parts =>
    simp only [hm, bind, Except.bind, pure, Except.pure, Except.ok.injEq] at h
    subst h
    obtain ⟨part, hpart, hof⟩ := Lists.mapM_mem hm hi
    have hin : ∀ {st}, st ∈ part → st ∈ parts.flatten := fun hst => mem_flatten_of_mem hpart hst
    unfold fulfillmentStatements at hof
    split at hof
    · cases hof
    split at hof
    · cases hof
    cases he : createEntitlementGrantStatements orderId i.item now (ids i.item.id).entitlement (ids i.item.id).grant with
    | error a => simp [he, bind, Except.bind] at hof
    | ok entitlement =>
      simp only [he, bind, Except.bind, pure, Except.pure, Except.ok.injEq] at hof
      subst hof
      refine ⟨hin ?_, fun hl => hin ?_, fun hd => hin ?_⟩
      · simp
      · simp [hl]
      · simp only [mem_append]
        refine .inl (.inl (.inr ?_))
        rw [if_pos hd]
        exact mem_cons_of_mem _ mem_cons_self

def fulfillmentCore (s : Db) := (s.orders, s.downloadAssets, s.stock, s.deliveries)

theorem FulfilsNothing.of_core (h : FulfilsNothing orderId items s) (hcore : fulfillmentCore t = fulfillmentCore s) :
    FulfilsNothing orderId items t := by
  simp only [fulfillmentCore, mk.injEq] at hcore
  obtain ⟨horders, hassets, hstock, hdeliveries⟩ := hcore
  refine ⟨h.unpaid.imp_right fun hu => ?_, fun i hi hl e he => ?_, fun i hi hd d hmem => ?_⟩
  · unfold Db.orderIs at hu ⊢
    rw [horders]
    exact hu
  · have hmiss := h.stock i hi hl e (hstock ▸ he)
    unfold reserveHits firstAvailable availableEntries reservedCount at hmiss ⊢
    rw [hstock]
    exact hmiss
  · have hmiss := h.downloads i hi hd d (hdeliveries ▸ hmem)
    unfold downloadFails at hmiss ⊢
    rw [hassets]
    exact hmiss

theorem FulfillStmt.core_kept (h : FulfillStmt orderId items st) (hnone : FulfilsNothing orderId items s)
    (hst : st c s = .ok (n, t)) : fulfillmentCore t = fulfillmentCore s := by
  have hkeep : ∀ {st : Stmt Db} {c n s t}, Keeps fulfillmentCore st → st c s = .ok (n, t) →
      fulfillmentCore t = fulfillmentCore s := fun h hst => h _ _ _ _ hst
  cases h with
  | reserve i hi hl =>
    have hsame := (reserve_same_iff hst).mpr (hnone.stock i hi hl)
    obtain ⟨-, T, -, rfl⟩ := update_ok hst
    exact congrArg (fun T => (s.orders, s.downloadAssets, T, s.deliveries)) hsame
  | delivery i hi ids now =>
    rcases hnone.unpaid with rfl | hunpaid
    · cases hi
    · unfold deliveryStatement insertDelivery at hst
      have hrows := (insertEach_ok hst).2
      rw [fromOrder_none (unpaid_iff.mp hunpaid)] at hrows
      simp only [insertRows, ok.injEq] at hrows
      rw [hrows]
  | supplierOrder i _ ids now => exact hkeep (insert_off rfl) hst
  | newEntitlement g => exact hkeep (insert_off rfl) hst
  | newGrant g => exact hkeep (insert_off rfl) hst
  | activation item now asset st h =>
    exact hkeep (activateEntitlementGrantStatements_keep ⟨fun _ _ => rfl, fun _ _ => rfl⟩ item now asset st h) hst
  | download i hi hd st h =>
    have hassets := ((FulfillStmt.download i hi hd st h).fulfilled c s n t hst).assets
    simp only [downloadStatements, mem_cons, not_mem_nil, or_false] at h
    rcases h with rfl | rfl
    · obtain ⟨-, T, -, rfl⟩ := insert_ok hst
      rcases hnone.unpaid with rfl | hunpaid
      · cases hi
      · exact congrArg (fun T => (s.orders, T, s.stock, s.deliveries)) (hassets hunpaid)
    · have hsame := (failDownloads_same_iff i.item hst).mpr (hnone.downloads i hi hd)
      obtain ⟨-, T, -, rfl⟩ := update_ok hst
      exact congrArg (fun T => (s.orders, s.downloadAssets, s.stock, T)) hsame
  | request i _ ids st h =>
    unfold requestStatements at h
    split at h
    · simp only [mem_cons, not_mem_nil, or_false] at h
      rcases h with rfl | rfl <;> exact hkeep (insert_off rfl) hst
    split at h
    · cases h
    · obtain rfl := mem_singleton.mp h
      exact hkeep (insert_off rfl) hst

theorem fulfillment_traceless_iff {ns : List Nat}
    (h : orderFulfillmentStatements orderId items ids now = .ok sts) (hb : batch sts c s = .ok (ns, t)) :
    t.stock = s.stock ∧ t.deliveries = s.deliveries ↔ FulfilsNothing orderId items s := by
  have hkinds := fulfillment_stmts h
  constructor
  · rintro ⟨hstock, hdeliveries⟩
    -- every statement ran on the stock and the records of the start, and left them
    have hat : ∀ {st}, st ∈ sts → ∃ k u n v, Fulfilled orderId s u ∧ st k u = .ok (n, v) ∧
        u.stock = s.stock ∧ v.stock = u.stock ∧ u.deliveries = s.deliveries ∧ v.deliveries = u.deliveries := by
      intro st hst
      obtain ⟨k, u, n, v, hbefore, hhere, hafter⟩ :=
        batch_at .refl (fun _ _ _ => .trans) (fun st hst => (hkinds st hst).fulfilled) hst hb
      have hmid := (hkinds st hst).fulfilled k u n v hhere
      obtain ⟨h1, h2⟩ := hbefore.stock.squeeze hmid.stock hafter.stock hstock
      obtain ⟨h3, h4⟩ := hbefore.deliveries.squeeze hmid.deliveries hafter.deliveries hdeliveries
      exact ⟨k, u, n, v, hbefore, hhere, h1, h2, h3, h4⟩
    have hunpaid : items = [] ∨ s.orderIs orderId (·.status == .paid) = false := by
      rcases items with _ | ⟨i, rest⟩
      · exact .inl rfl
      · right
        obtain ⟨k, u, n, v, hbefore, hhere, -, -, -, hsame⟩ := hat (fulfillment_mem h mem_cons_self).1
        rcases delivery_cases hhere with ⟨-, hunpaid⟩ | hlt
        · unfold Db.orderIs at hunpaid ⊢
          rw [← hbefore.orders]
          exact hunpaid
        · rw [hsame] at hlt
          exact absurd hlt (lt_irrefl _)
    refine ⟨hunpaid, fun i hi hl e he => ?_, fun i hi hd d hmem => ?_⟩
    · obtain ⟨k, u, n, v, -, hhere, hu, hv, -, -⟩ := hat ((fulfillment_mem h hi).2.1 hl)
      have hmiss := (reserve_same_iff hhere).mp hv e (hu ▸ he)
      unfold reserveHits firstAvailable availableEntries reservedCount at hmiss ⊢
      rw [← hu]
      exact hmiss
    · obtain ⟨k, u, n, v, hbefore, hhere, -, -, hu, hv⟩ := hat ((fulfillment_mem h hi).2.2 hd)
      have hmiss := (failDownloads_same_iff i.item hhere).mp hv d (hu ▸ hmem)
      rcases hunpaid with rfl | hunpaid
      · cases hi
      · unfold downloadFails at hmiss ⊢
        rw [← hbefore.assets hunpaid]
        exact hmiss
  · intro hnone
    have hcore : fulfillmentCore t = fulfillmentCore s := by
      refine batch_within (R := fun u v => fulfillmentCore u = fulfillmentCore s → fulfillmentCore v = fulfillmentCore s)
        (fun _ h => h) (fun _ _ _ hab hbc ha => hbc (hab ha)) (fun st hst c u n v hhere hu => ?_) hb rfl
      exact ((hkinds st hst).core_kept (hnone.of_core hu) hhere).trans hu
    simp only [fulfillmentCore, mk.injEq] at hcore
    exact hcore.2.2

end Fulfilments

/-! ## Behind the swap -/

section Settled

variable {order : ShopOrder} {items : List OrderItem} {ids : Id → ItemIds} {now : Time} {fulfillment : List (Stmt Db)}
  {s t : Db} {c n : Nat} {ns : List Nat}

theorem paidEvent_same_iff {version : Id} (h : paidEventStatement orderId version type c s = .ok (n, t)) :
    t.events = s.events ↔ s.orderIs orderId (paidAt version) = false := by
  obtain ⟨-, T, hT, rfl⟩ := insert_abort_ok h
  have hrows : T.rows = s.events.rows ++ _ := hT
  show T = s.events ↔ _
  by_cases hpaid : s.orderIs orderId (paidAt version) = true
  · obtain ⟨o, ho, hp⟩ := orderIs_iff.mp hpaid
    rw [fromOrder_some ho hp] at hrows
    constructor
    · intro hsame
      have hlength := congrArg length hrows
      rw [hsame, length_append, length_singleton] at hlength
      omega
    · intro hfalse
      rw [hpaid] at hfalse
      cases hfalse
  · have hmiss : ∀ o, s.orders.get? orderId = some o → paidAt version o = false :=
      fun o ho => Bool.eq_false_iff.mpr fun hp => hpaid (orderIs_iff.mpr ⟨o, ho, hp⟩)
    rw [fromOrder_none hmiss, append_nil] at hrows
    exact ⟨fun _ => Bool.eq_false_iff.mpr hpaid, fun _ => ext_rows hrows⟩

theorem consume_same_iff (h : consumeRedemptionStatement orderId (· == .reserved) c s = .ok (n, t)) :
    t.redemptions = s.redemptions ↔ ∀ cr ∈ s.redemptions.rows, cr.orderId = orderId → cr.status ≠ .reserved := by
  refine (update_same_iff (T := Db.redemptionsT) h fun cr _ hopen hsame => ?_).trans ?_
  · simp only [Bool.and_eq_true, beq_iff_eq] at hopen
    have hstatus := congrArg CouponRedemption.status hsame
    rw [hopen.2] at hstatus
    cases hstatus
  · refine forall_congr' fun cr => forall_congr' fun _ => ?_
    rw [Bool.and_eq_false_iff, beq_eq_false_iff_ne, beq_eq_false_iff_ne, ← imp_iff_not_or]

theorem settled_traceless_iff (h : orderFulfillmentStatements order.id items ids now = .ok fulfillment)
    (hb : batch (paidEventStatement order.id (order.version + 1) type ::
      settleStatements order.id (order.version + 1) fulfillment) c s = .ok (ns, t)) :
    raceRows t = raceRows s ↔ SettlesNothing order items s := by
  obtain ⟨_, s1, _, hevent, hb, -⟩ := batch_cons_ok hb
  obtain ⟨_, s2, _, hfulfil, hb, -⟩ := batch_append_ok hb
  obtain ⟨_, s3, _, hconsume, hb, -⟩ := batch_cons_ok hb
  obtain ⟨_, houtbox, -⟩ := batch_single_ok hb
  have hfilled : Fulfilled order.id s1 s2 :=
    batch_within .refl (fun _ _ _ => .trans) (fun st hst => (fulfillment_stmts h st hst).fulfilled) hfulfil
  have hevents := paidEvent_same_iff hevent
  have hstock := fulfillment_traceless_iff h hfulfil
  have hredemptions := consume_same_iff hconsume
  have hbeside := hfilled.beside
  obtain ⟨-, te, -, rfl⟩ := insert_abort_ok hevent
  obtain ⟨-, tr, -, rfl⟩ := update_ok hconsume
  obtain ⟨-, to', -, rfl⟩ := insert_abort_ok houtbox
  simp only [besideFulfillment, mk.injEq] at hbeside
  obtain ⟨-, hred, hcoupons, husers, hwallet, hev⟩ := hbeside
  have hcore : FulfilsNothing order.id items (Db.eventsT.set s te) ↔ FulfilsNothing order.id items s :=
    ⟨fun h => h.of_core rfl, fun h => h.of_core rfl⟩
  have hrace : raceRows (Db.outboxT.set (Db.redemptionsT.set s2 tr) to') = raceRows s ↔
      te = s.events ∧ (s2.stock = s.stock ∧ s2.deliveries = s.deliveries) ∧ tr = s2.redemptions := by
    show (s2.stock, tr, s2.coupons, s2.users, s2.walletEntries, s2.deliveries, s2.events) = _ ↔ _
    rw [hcoupons, husers, hwallet, hev, hred]
    unfold raceRows
    simp only [mk.injEq]
    constructor
    · rintro ⟨h1, h2, -, -, -, h3, h4⟩
      exact ⟨h4, ⟨h1, h3⟩, h2⟩
    · rintro ⟨h4, ⟨h1, h3⟩, h2⟩
      exact ⟨h1, h2, rfl, rfl, rfl, h3, h4⟩
  rw [hrace]
  constructor
  · rintro ⟨h1, h2, h3⟩
    have hopen := hredemptions.mp h3
    rw [hred] at hopen
    exact ⟨hevents.mp h1, hcore.mp (hstock.mp h2), hopen⟩
  · intro hnone
    refine ⟨hevents.mpr hnone.event, hstock.mpr (hcore.mpr hnone.fulfillment), hredemptions.mpr ?_⟩
    rw [hred]
    exact hnone.redemption

/-! ## The three batches -/

theorem updateOrders_none {p : Db → ShopOrder → Bool} {f : Db → ShopOrder → ShopOrder}
    (h : updateOrders p f c s = .ok (n, t)) (hn : n < 1) : t = s := by
  obtain ⟨hcount, hrows⟩ := updateEach_ok h
  have hnone : s.orders.rows.filter (p s) = [] :=
    filter_eq_nil_iff.mpr fun o ho hp => by
      have hmiss := count_eq_zero.mp (hcount.symm.trans (Nat.lt_one_iff.mp hn)) o ho
      rw [hmiss] at hp
      cases hp
  rw [show (Db.ordersT.get s).rows.filter (p s) = [] from hnone] at hrows
  simp only [updateRows, ok.injEq] at hrows
  exact hrows.symm

theorem FulfillStmt.events_kept (h : FulfillStmt orderId items st) : Keeps Db.events st :=
  fun c s n t hst => congrArg (fun r => r.2.2.2.2.2) (h.fulfilled c s n t hst).beside

section

variable (h : orderFulfillmentStatements order.id items ids now = .ok fulfillment)
include h

theorem settle_events {version : Nat}
    (hb : batch (settleStatements order.id version fulfillment) c s = .ok (ns, t)) : t.events = s.events := by
  refine batch_keeps (g := Db.events) (fun st hst => ?_) hb
  simp only [settleStatements, mem_append, mem_cons, not_mem_nil, or_false] at hst
  rcases hst with hst | rfl | rfl
  · exact (fulfillment_stmts h st hst).events_kept
  · exact update_off rfl
  · exact insert_off rfl

theorem freeOrder_traceless_iff
    (hb : batch (freeOrderBatch order.id order.version fulfillment now) 0 s = .ok (ns, t))
    (hlost : ns.headD 0 < 1) : raceRows t = raceRows s ↔ SettlesNothing order items s := by
  obtain ⟨n1, s1, ms, hswap, hrest, rfl⟩ := batch_cons_ok hb
  obtain rfl := updateOrders_none hswap hlost
  exact settled_traceless_iff h hrest

end

theorem walletSwaps_none {user : Id} {balance : Int} {balanceVersion : Nat} {rest : List (Stmt Db)}
    (hb : batch (walletSwaps order user balance balanceVersion now ++ rest) 0 s = .ok (ns, t)) (hlost : ns.headD 0 < 1) :
    ∃ n1 n2 u ms, updateOrders (fun s o => orderCas order.id .pendingPayment order.version o &&
        s.walletEntries.exist fun w => w.idempotencyKey == .shopOrder order.id)
      (fun _ o => paidOrder (order.version + 1) now o) n1 s = .ok (n2, u) ∧ batch rest n2 u = .ok (ms, t) := by
  obtain ⟨n1, s1, ms1, hdebit, hrest1, rfl⟩ := batch_cons_ok hb
  obtain ⟨n2, s2, ms2, hentry, hrest2, -⟩ := batch_cons_ok hrest1
  obtain ⟨n3, s3, ms3, hswap, hrest3, -⟩ := batch_cons_ok hrest2
  have hzero : n1 = 0 := Nat.lt_one_iff.mp hlost
  subst hzero
  have hs1 : s1 = s := update_miss hdebit (count_eq_zero.mp (update_ok hdebit).1.symm)
  have hs2 : s2 = s1 := by
    obtain ⟨-, T, hT, rfl⟩ := insert_abort_ok (onChanges_ok hentry)
    have hnone : T.rows = s1.walletEntries.rows := by
      rw [hT]
      simp
      rfl
    rw [ext_rows hnone]
    rfl
  subst hs1 hs2
  exact ⟨n2, n3, s3, ms3, hswap, hrest3⟩

section

variable (h : orderFulfillmentStatements order.id items ids now = .ok fulfillment)
include h

theorem walletOrder_traceless_iff {user : User}
    (hb : batch (walletOrderBatch order user.id user.balanceMinor user.balanceVersion fulfillment now) 0 s =
      .ok (ns, t)) (hlost : ns.headD 0 < 1) :
    raceRows t = raceRows s ↔ SettlesNothing order items s ∧ ∀ o ∈ s.orders.rows,
      (orderCas order.id .pendingPayment order.version o &&
        s.walletEntries.exist fun w => w.idempotencyKey == .shopOrder order.id) = false := by
  unfold walletOrderBatch at hb
  rw [append_assoc] at hb
  obtain ⟨n1, n2, u, ms, hswap, hrest⟩ := walletSwaps_none hb hlost
  have hrows := updateOrders_rows (f := fun _ o => paidOrder (order.version + 1) now o) (fun _ _ => rfl) hswap
  by_cases hn : n2 < 1
  · obtain rfl := updateOrders_none hswap hn
    have hmiss := Table.count_eq_zero.mp (hrows.1.symm.trans (Nat.lt_one_iff.mp hn))
    rw [settled_traceless_iff h hrest]
    exact (and_iff_left hmiss).symm
  · -- the order is paid at the version, so its event is added
    have hfound : ∃ o ∈ s.orders.rows, (orderCas order.id .pendingPayment order.version o &&
        s.walletEntries.exist fun w => w.idempotencyKey == .shopOrder order.id) = true := by
      by_contra hnone
      refine hn ?_
      rw [hrows.1, Nat.lt_one_iff, Table.count_eq_zero]
      exact fun o ho => Bool.eq_false_iff.mpr fun hp => hnone ⟨o, ho, hp⟩
    obtain ⟨o, ho, hp⟩ := hfound
    have hid : o.id = order.id := by
      simp only [orderCas, Bool.and_eq_true, beq_iff_eq] at hp
      exact hp.1.1
    have hpaid : u.orderIs order.id (paidAt (order.version + 1)) = true := by
      refine orderIs_iff.mpr ⟨paidOrder (order.version + 1) now o, ?_, by simp [paidAt, paidOrder]⟩
      refine Table.get?_eq_some_iff.mpr ⟨?_, hid⟩
      rw [hrows.2]
      refine mem_map.mpr ⟨o, ho, ?_⟩
      rw [if_pos hp]
    obtain ⟨n3, v, ms3, hevent, hrest3, -⟩ := batch_cons_ok hrest
    constructor
    · intro hsame
      exfalso
      have hevents : t.events = s.events := congrArg (fun r => r.2.2.2.2.2.2) hsame
      rw [settle_events h hrest3, ← updateOrders_events hswap, paidEvent_same_iff hevent, hpaid] at hevents
      cases hevents
    · rintro ⟨-, hnone⟩
      rw [hnone o ho] at hp
      cases hp

theorem paymentEvent_traceless_iff {channelId attemptId : Id} {event : PaymentEvent} {coupon : Option Id}
    (hb : batch (orderPaymentBatch channelId attemptId event order coupon fulfillment now) 0 s = .ok (ns, t))
    (hlost : (ns[2]?).getD 0 < 1) :
    raceRows t = raceRows s ↔ s.orderIs order.id (paidAt (order.version + 1)) = false := by
  obtain ⟨n1, t1, ms1, hreceipt, hrest1, rfl⟩ := batch_cons_ok hb
  obtain ⟨n2, t2, ms2, hattempt, hrest2, rfl⟩ := batch_cons_ok hrest1
  obtain ⟨n3, t3, ms3, hswap, hrest3, rfl⟩ := batch_cons_ok hrest2
  obtain ⟨n4, t4, ms4, hevent, hrest4, -⟩ := batch_cons_ok hrest3
  have hreceipt' : Keeps (fun s : Db => (s.orders, s.events)) (paymentEventStatement channelId attemptId event .processed) :=
    (insert_off rfl)
  have hbefore : (t2.orders, t2.events) = (s.orders, s.events) := by
    have hpaid := updateAttempts_alone (g := fun s : Db => (s.orders, s.events)) (fun _ _ => rfl) _
      (fun _ _ => ⟨by simp, by simp⟩) _ _ _ _ hattempt
    exact hpaid.trans (hreceipt' _ _ _ _ hreceipt)
  simp only [mk.injEq] at hbefore
  obtain rfl := updateOrders_none hswap hlost
  obtain ⟨ev, te, hev, hte, -, rfl⟩ := insertRequired_ok hevent
  obtain ⟨o, ho, rfl⟩ := mem_map.mp (mem_of_mem_head? hev)
  have hpaid : s.orderIs order.id (paidAt (order.version + 1)) = true := by
    obtain ⟨hmem, hp⟩ := mem_filter.mp ho
    rw [Bool.and_eq_true, beq_iff_eq] at hp
    rw [hbefore.1] at hmem
    exact orderIs_iff.mpr ⟨o, get?_eq_some_iff.mpr ⟨hmem, hp.1⟩, hp.2⟩
  have hafter : t.events = te := by
    have hrest : batch (afterPaymentEvent order.id (order.version + 1) coupon fulfillment) n4 _ = .ok (ms4, t) := hrest4
    refine batch_keeps (g := Db.events) (fun st hst => ?_) hrest
    simp only [afterPaymentEvent, mem_append, mem_cons, not_mem_nil, or_false] at hst
    rcases hst with (hst | hst) | rfl | rfl
    · cases coupon with
      | none => cases hst
      | some k =>
        exact each_two (update_off rfl) abortWhen_keeps _ hst
    · exact (fulfillment_stmts h st hst).events_kept
    · exact update_off rfl
    · exact insert_off rfl
  constructor
  · intro hsame
    have hevents : t.events = s.events := congrArg (fun r => r.2.2.2.2.2.2) hsame
    have hlength := congrArg length hte
    have hrows : te.rows = t3.events.rows := by rw [← hafter, hevents, hbefore.2]
    rw [hrows, length_append, length_singleton] at hlength
    exact absurd hlength (Nat.ne_of_lt (Nat.lt_succ_self _))
  · intro hfalse
    rw [hpaid] at hfalse
    cases hfalse

end

end Settled

/-- A batch that lost its race leaves no trace exactly when what it does not guard finds nothing to do. -/
theorem lost_race_traceless_iff {x : PayingBatch} {items : List OrderItem} {ids : Id → ItemIds} {now : Time}
    {fulfillment : List (Stmt Db)} {s t : Db} {ns : List Nat}
    (h : orderFulfillmentStatements x.order.id items ids now = .ok fulfillment)
    (hb : batch (x.statements fulfillment now) 0 s = .ok (ns, t)) (hlost : x.lost ns) :
    raceRows t = raceRows s ↔ x.traceless items s := by
  cases x with
  | completeFree order => exact freeOrder_traceless_iff h hb hlost
  | completeWallet order user => exact walletOrder_traceless_iff h hb hlost
  | paymentEvent channelId attemptId event order coupon => exact paymentEvent_traceless_iff h hb hlost

/-! ## An order that expires in between -/

def readOrder : ShopOrder := { id := 1, status := .pendingPayment, version := 1, totalMinor := 0 }

def expiredDb (codes : Table StockEntry) : Db where
  orders := .ok [{ readOrder with status := .expired, version := 2 }]
  items := .ok [{ id := 1, orderId := 1, sellableItemId := 1, deliveryComponentId := 1
                  deliveryComponentType := .stock, quantity := 1 }]
  sellableItems := .ok [{ id := 1 }]
  stock := codes

def expiredItems : List OrderItem := orderItemsForFulfillment (expiredDb (.of [])) 1

def expiredFulfillment : Except DomainError (List (Stmt Db)) :=
  orderFulfillmentStatements 1 expiredItems (fun _ => ⟨1, 1, 1, 1⟩) 5

def lateBatch (codes : Table StockEntry) : Except Abort (List Nat × Db) :=
  batch (PayingBatch.statements (expiredFulfillment.toOption.getD []) 5 (.completeFree readOrder)) 0 (expiredDb codes)

def lateDb (codes : Table StockEntry) : List Nat × Db := (lateBatch codes).toOption.getD ([], {})

def oneCode : Table StockEntry := .of [{ id := 10, sellableItemId := 1, status := .available }]

theorem ok_of_isSome {ε α : Type} {r : Except ε α} (d : α) (h : r.toOption.isSome = true) :
    r = .ok (r.toOption.getD d) := by
  cases r with
  | error _ => cases h
  | ok _ => rfl

theorem lateDb_emptyShelf : raceRows (lateDb (.of [])).2 = raceRows (expiredDb (.of [])) := by
  simp only [raceRows, mk.injEq]
  decide

/-- On an empty shelf the late batch finds nothing. -/
theorem lost_race_traceless_iff_emptyShelf : SettlesNothing readOrder expiredItems (expiredDb (.of [])) :=
  (lost_race_traceless_iff (x := .completeFree readOrder)
    (ok_of_isSome [] (by decide : expiredFulfillment.toOption.isSome = true))
    (ok_of_isSome ([], {}) (by decide : (lateBatch (.of [])).toOption.isSome = true))
    (by decide : (lateDb (.of [])).1.headD 0 < 1)).mp lateDb_emptyShelf

/-- A code on the shelf is reserved for the expired order. -/
theorem not_lost_race_traceless :
    ¬∀ (x : PayingBatch) (items : List OrderItem) (ids : Id → ItemIds) (now : Time) (fulfillment : List (Stmt Db))
      (s t : Db) (ns : List Nat), orderFulfillmentStatements x.order.id items ids now = .ok fulfillment →
      batch (x.statements fulfillment now) 0 s = .ok (ns, t) → x.lost ns → raceRows t = raceRows s := by
  intro h
  have hsame := h (.completeFree readOrder) expiredItems _ 5 _ (expiredDb oneCode) _ _
    (ok_of_isSome [] (by decide : expiredFulfillment.toOption.isSome = true))
    (ok_of_isSome ([], {}) (by decide : (lateBatch oneCode).toOption.isSome = true))
    (by decide : (lateDb oneCode).1.headD 0 < 1)
  have hstock : (lateDb oneCode).2.stock = oneCode := congrArg fst hsame
  exact absurd hstock (by decide)

end Gmshop
