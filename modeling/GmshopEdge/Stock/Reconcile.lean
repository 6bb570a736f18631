import GmshopEdge.Lib.Guarantee
import GmshopEdge.Orders.Settled
import GmshopEdge.Stock.Moves
import GmshopEdge.Lib.Checked

/-!
# Reconciling a delivered order

`reconcileDeliveredOrder` chooses an available entry and then commits its receipt, the entry and the
record in one batch. The receipt asks for nothing and the record only for being delivered, and the call
looks at the change counts afterwards: when the entry was taken meanwhile, the conflict it answers comes
after the receipt and the content were written (`reconcileCurrent`).

Beside reservations and deliveries what is delivered stays so, and what is reserved for an order that can
be delivered is never given to another (`HeldKept`); so the codes that a delivery hands out belong to its
item (`CodesHeld`).
-/

namespace Gmshop

open List Sql Stmt Prog Table Each World

/-! ## The property -/

def contentCodes : Option DeliveryContent → List StockCode
  | some (.codes cs) => cs
  | _ => []

def DeliveryRecord.codes (d : DeliveryRecord) : List StockCode := contentCodes d.contentEncrypted

def Delivered (s : Db) (entryId orderItemId : Id) : Prop :=
  ∃ e, s.stock.get? entryId = some e ∧ e.status = .delivered ∧ e.orderItemId = some orderItemId

/-- Every code of a delivery is that of an entry delivered to its item. -/
def CodesHeld (s : Db) : Prop :=
  ∀ d ∈ s.deliveries.rows, ∀ c ∈ d.codes, Delivered s c.entryId d.orderItemId

def orderOf (s : Db) (d : DeliveryRecord) : Option Id :=
  (s.items.get? d.orderItemId).map (·.orderId)

def CodesSoldOnce (s : Db) : Prop :=
  ∀ d ∈ s.deliveries.rows, ∀ d' ∈ s.deliveries.rows, ∀ c ∈ d.codes, ∀ c' ∈ d'.codes,
    c.entryId = c'.entryId → orderOf s d = orderOf s d'

variable {s t : Db} {itemId : Id} {st : Stmt Db} {money ordering paying : Prop}
  {content : Option DeliveryContent} {c : DeliveryContext} {now : Time} {n : Nat} {d : DeliveryRef}
  {ns : List Nat} {C : Id → Option DeliveryContent → Prop} {r : ReconcileRef}

theorem CodesHeld.soldOnce (h : CodesHeld s) : CodesSoldOnce s := by
  intro d hd d' hd' c hc c' hc' heq
  obtain ⟨e, he, -, hi⟩ := h d hd c hc
  obtain ⟨e', he', -, hi'⟩ := h d' hd' c' hc'
  rw [heq, he', Option.some.injEq] at he
  rw [he, hi, Option.some.injEq] at hi'
  unfold orderOf
  rw [hi']

/-- A reconciliation that took effect: the record holds the code of an entry delivered to its item. -/
structure Reconciled (r : ReconcileRef) (s : Db) : Prop where
  content : ∃ d e, s.deliveries.get? r.deliveryId = some d ∧ d.orderItemId = r.orderItemId ∧
    s.stock.get? r.stockId = some e ∧ e.status = .delivered ∧ e.orderItemId = some r.orderItemId ∧
    d.contentEncrypted = some (.codes [e.code])
  receipt : r.receipt ∈ s.stockReceipts.rows

/-- The condition: the chosen entry is still available, with the text it was imported with. -/
def reconcileCurrent (x : StockSite) (s : Db) : Prop :=
  match x with
  | .reconcileDeliveredOrder r =>
    (s.stock.exist fun e => e.id == r.stockId && e.status == .available && !e.converted) = true
  | _ => True

instance (x : StockSite) (s : Db) : Decidable (reconcileCurrent x s) := by
  casesm StockSite <;> dsimp only [reconcileCurrent] <;> infer_instance

/-! ## What the others see -/

/-- `paid`, `fulfilling` or `completed`. -/
def ShopOrderStatus.held (st : ShopOrderStatus) : Bool :=
  st == .paid || st == .fulfilling || st == .completed

def ItemHeld (s : Db) (itemId : Id) : Prop :=
  ∃ i o, s.items.get? itemId = some i ∧ s.orders.get? i.orderId = some o ∧ o.status.held = true

def OrdersHeld (s t : Db) : Prop :=
  ∀ id o, s.orders.get? id = some o → o.status.held = true → ∃ o', t.orders.get? id = some o' ∧ o'.status.held = true

/-- Delivered entries stay, and so does what is reserved for such an order. -/
def EntriesHeld (s t : Db) : Prop :=
  ∀ id e i, s.stock.get? id = some e → e.orderItemId = some i →
    (e.status = .delivered ∨ e.status = .reserved ∧ ItemHeld s i) →
    ∃ e', t.stock.get? id = some e' ∧ e'.orderItemId = some i ∧
      (e'.status = .delivered ∨ e.status = .reserved ∧ e'.status = .reserved)

structure HeldKept (s t : Db) : Prop where
  owners : OwnersKept s t
  orders : OrdersHeld s t
  entries : EntriesHeld s t

theorem OrdersHeld.of_eq (h : t.orders = s.orders) : OrdersHeld s t :=
  fun _ o ho hs => ⟨o, by rw [h]; exact ho, hs⟩

theorem OrdersHeld.trans {a b c : Db} (h : OrdersHeld a b) (h' : OrdersHeld b c) : OrdersHeld a c := by
  intro id o ho hs
  obtain ⟨o', ho', hs'⟩ := h id o ho hs
  exact h' id o' ho' hs'

theorem EntriesHeld.of_eq (h : t.stock = s.stock) : EntriesHeld s t := by
  intro id e i he hi hs
  exact ⟨e, by rw [h]; exact he, hi, hs.imp_right fun hr => ⟨hr.1, hr.1⟩⟩

theorem HeldKept.refl (s : Db) : HeldKept s s := ⟨.refl s, .of_eq rfl, .of_eq rfl⟩

theorem HeldKept.item (h : HeldKept s t) (hi : ItemHeld s itemId) : ItemHeld t itemId := by
  obtain ⟨i, o, hi, ho, hs⟩ := hi
  obtain ⟨i', hi', hio⟩ := h.owners.items _ i hi
  obtain ⟨o', ho', hs'⟩ := h.orders _ o ho hs
  exact ⟨i', o', hi', by rw [hio]; exact ho', hs'⟩

theorem HeldKept.trans (a b c : Db) (h : HeldKept a b) (h' : HeldKept b c) : HeldKept a c := by
  refine ⟨h.owners.trans h'.owners, h.orders.trans h'.orders, fun id e i he hi hs => ?_⟩
  obtain ⟨f, hf, hfi, hfs⟩ := h.entries id e i he hi hs
  rcases hfs with hdel | ⟨hres, hfres⟩
  · obtain ⟨g, hg, hgi, hgs⟩ := h'.entries id f i hf hfi (Or.inl hdel)
    refine ⟨g, hg, hgi, Or.inl ?_⟩
    rcases hgs with hgd | ⟨hfr, -⟩
    · exact hgd
    · rw [hdel] at hfr
      cases hfr
  · have hitem : ItemHeld a i := by
      rcases hs with hdel | hr
      · rw [hdel] at hres
        cases hres
      · exact hr.2
    obtain ⟨g, hg, hgi, hgs⟩ := h'.entries id f i hf hfi (Or.inr ⟨hfres, h.item hitem⟩)
    exact ⟨g, hg, hgi, hgs.imp_right fun hr => ⟨hres, hr.2⟩⟩

theorem EntriesHeld.delivered (h : EntriesHeld s t) {entryId : Id} (hd : Delivered s entryId itemId) :
    Delivered t entryId itemId := by
  obtain ⟨e, he, hs, hi⟩ := hd
  obtain ⟨e', he', hi', hs'⟩ := h entryId e itemId he hi (Or.inl hs)
  refine ⟨e', he', ?_, hi'⟩
  rcases hs' with hd | ⟨hr, -⟩
  · exact hd
  · rw [hs] at hr
    cases hr

theorem CodesHeld.step (h : CodesHeld s) (hentries : EntriesHeld s t)
    (hnew : ∀ d' ∈ t.deliveries.rows, (∃ d ∈ s.deliveries.rows, d'.orderItemId = d.orderItemId ∧
      d'.contentEncrypted = d.contentEncrypted) ∨ ∀ c ∈ d'.codes, Delivered t c.entryId d'.orderItemId) :
    CodesHeld t := by
  intro d' hd' c hc
  rcases hnew d' hd' with ⟨d, hd, hitem, hcontent⟩ | hheld
  · rw [hitem]
    refine hentries.delivered (h d hd c ?_)
    unfold DeliveryRecord.codes at hc ⊢
    rw [hcontent] at hc
    exact hc
  · exact hheld c hc

/-! ## The shop -/

theorem keeps_ordersHeld (h : Keeps Db.orders st) : Within OrdersHeld st :=
  fun c s n s' hs => .of_eq (h c s n s' hs)

theorem ordersHeld_mapped {f : ShopOrder → ShopOrder} (h : t.orders.rows = s.orders.rows.map f)
    (hid : ∀ o, (f o).id = o.id) (hs : ∀ o, o.status.held = true → (f o).status.held = true) :
    OrdersHeld s t := by
  intro id o ho hheld
  refine ⟨f o, ?_, hs o hheld⟩
  rw [get?_map h hid, ho]
  rfl

theorem updateOrders_held {p : Db → ShopOrder → Bool} {f : Db → ShopOrder → ShopOrder}
    (hid : ∀ s o, (f s o).id = o.id)
    (hs : ∀ s o, p s o = true → o.status.held = true → (f s o).status.held = true) :
    Within OrdersHeld (updateOrders p f) := by
  intro c s n s' h
  refine ordersHeld_mapped (updateOrders_rows hid h).2 (fun o => ?_) fun o ho => ?_
  · split
    · exact hid s o
    · rfl
  · split
    · next hp => exact hs s o hp ho
    · exact ho

theorem SettledKept.ordersHeld (h : SettledKept s t) : OrdersHeld s t := by
  intro id o ho hheld
  have hsettled : o.payable = false := by
    unfold ShopOrder.payable
    cases hst : o.status <;> first | rfl | (rw [hst] at hheld; cases hheld)
  obtain ⟨o', ho', hs⟩ := h id o ho hsettled
  refine ⟨o', ho', ?_⟩
  rw [hs]
  exact hheld

theorem UnpaidStmt.ordersHeld (h : UnpaidStmt paying ordering money st) : Within OrdersHeld st :=
  fun c s n s' hst => (h.settledKept c s n s' hst).ordersHeld

theorem UnpaidStmt.store (h : UnpaidStmt paying ordering money st) : StoreStmt st ∨ Keeps storeCore st := by
  cases h with
  | quiet st h => exact (ShopStmt.quiet st h).store
  | swap p f hf hp =>
    exact Or.inr (updateOrders_keeps (by constructor <;> exact fun _ _ => rfl) fun _ _ => rfl)

theorem updateStock_held {p : Db → StockEntry → Bool} {f : StockEntry → StockEntry}
    (hid : ∀ e, (f e).id = e.id) (hp : ∀ s, ∀ e ∈ s.stock.rows, p s e = true →
      e.status = .available ∨ e.status = .reserved ∧ ∀ i, e.orderItemId = some i → ¬ItemHeld s i) :
    Within EntriesHeld (update Db.stockT p fun _ => f) := by
  intro c s n s' h id e i he hi hs
  obtain ⟨-, t, ht, rfl⟩ := update_ok h
  have hmiss : p s e = false := by
    cases hpe : p s e with
    | false => rfl
    | true =>
      rcases hp s e (get?_mem he) hpe with hav | ⟨hres, hnot⟩
      · rcases hs with hd | ⟨hr, -⟩
        · rw [hav] at hd
          cases hd
        · rw [hav] at hr
          cases hr
      · rcases hs with hd | ⟨-, hheld⟩
        · rw [hres] at hd
          cases hd
        · exact absurd hheld (hnot i hi)
  refine ⟨e, ?_, hi, hs.imp_right fun hr => ⟨hr.1, hr.1⟩⟩
  have hget : t.get? id = (s.stock.get? id).map fun e => if p s e then f e else e := by
    refine get?_map ht (fun x => ?_) id
    split
    · exact hid x
    · rfl
  refine hget.trans ?_
  rw [he, Option.map_some, hmiss]
  rfl

theorem keeps_entriesHeld (h : Keeps Db.stock st) : Within EntriesHeld st :=
  fun c s n s' hs => .of_eq (h c s n s' hs)

theorem held_releases {st : ShopOrderStatus} (h : st.held = true) : st.releasesStock = false := by
  cases st <;> first | rfl | cases h

theorem releasable_notHeld {orderId : Id} (h : itemReleasable s orderId itemId = true) : ¬ItemHeld s itemId := by
  rintro ⟨i, o, hi, ho, hs⟩
  unfold itemReleasable at h
  rw [Bool.and_eq_true] at h
  obtain ⟨j, hj, hjo⟩ := itemOf_iff.mp h.1
  obtain ⟨o', ho', hrel⟩ := orderIs_iff.mp h.2
  rw [hi, Option.some.injEq] at hj
  rw [← hjo, ← hj, ho, Option.some.injEq] at ho'
  rw [← ho', held_releases hs] at hrel
  cases hrel

theorem StoreStmt.entriesHeld (h : StoreStmt st) : Within EntriesHeld st := by
  cases h with
  | items g => exact keeps_entriesHeld (insert_off rfl)
  | delivery orderId i ids now => exact keeps_entriesHeld (insertDelivery_keeps fun _ _ => rfl)
  | records p f hf => exact keeps_entriesHeld (update_off rfl)
  | reserve i =>
    refine updateStock_held (fun _ => rfl) fun s e he hp => Or.inl ?_
    rw [Bool.and_eq_true] at hp
    exact firstAvailable_available he hp.1
  | reserveSale componentId itemId quantity =>
    exact updateStock_held (fun _ => rfl) fun s e he hp => Or.inl (firstAvailable_available he hp)
  | release orderId =>
    refine updateStock_held (fun _ => rfl) fun s e he hp => Or.inr ?_
    rw [Bool.and_eq_true, beq_iff_eq] at hp
    refine ⟨hp.1, fun i hi => ?_⟩
    have hany := hp.2
    rw [hi] at hany
    have hrel : itemReleasable s orderId i = true := hany
    exact releasable_notHeld hrel

theorem UnpaidStmt.heldKept (h : UnpaidStmt paying ordering money st) : Within HeldKept st := by
  intro c s n s' hs
  refine ⟨(store_recordsIdle h.store c s n s' hs).owners, h.ordersHeld c s n s' hs, ?_⟩
  rcases h.store with hstore | hkeeps
  · exact hstore.entriesHeld c s n s' hs
  · exact .of_eq (congrArg Prod.snd (hkeeps c s n s' hs))

theorem CodesHeld.idle (h : CodesHeld s) (hidle : RecordsIdle s t) (hentries : EntriesHeld s t) : CodesHeld t := by
  obtain ⟨f, new, hf, hnew, hrows⟩ := hidle.deliveries
  refine h.step hentries fun d' hd' => ?_
  rw [hrows] at hd'
  rcases mem_append.mp hd' with hold | hn
  · obtain ⟨d, hd, rfl⟩ := mem_map.mp hold
    exact Or.inl ⟨d, hd, (hf d).item, (hf d).content⟩
  · refine Or.inr fun c hc => ?_
    unfold DeliveryRecord.codes at hc
    rw [hnew d' hn] at hc
    cases hc

/-! ## The deliveries -/

theorem nextOrderStatus_held (n : Nat) : (nextOrderStatus n).held = true := by
  unfold nextOrderStatus
  split <;> rfl

theorem orderProgress_held (d : DeliveryRef) (n : Nat) (now : Time) :
    ∀ st ∈ orderProgressStatements d n now, Within OrdersHeld st := by
  intro st hst
  refine each_three ?_ ?_ ?_ _ hst
  · exact updateOrders_held (fun _ _ => rfl) fun _ _ _ _ => nextOrderStatus_held n
  · exact keeps_ordersHeld (insert_off rfl)
  · exact keeps_ordersHeld (insert_off rfl)

theorem activateGrants_held (itemId : Id) (now : Time) :
    ∀ st ∈ activateEntitlementGrantStatements itemId now, Within OrdersHeld st :=
  fun st hst => keeps_ordersHeld (activateEntitlementGrantStatements_keep
    ⟨fun _ _ => rfl, fun _ _ => rfl⟩ itemId now _ st hst)

theorem completeOrder_held (orderId : Id) (now : Time) : Within OrdersHeld (completeOrderStatement orderId now) :=
  updateOrders_held (fun _ _ => rfl) fun _ _ _ _ => rfl

theorem deliverBatch_held : ∀ st ∈ deliverBatch c content n now, Within OrdersHeld st := by
  intro st hst
  simp only [deliverBatch, mem_append, mem_cons, not_mem_nil, or_false] at hst
  rcases hst with (((hst | hst) | hst) | rfl) | hst
  · rcases hst with rfl | rfl
    · exact keeps_ordersHeld (update_off rfl)
    · exact keeps_ordersHeld abortWhen_keeps
  · split at hst
    · rw [mem_singleton.mp hst]
      exact keeps_ordersHeld (update_off rfl)
    · cases hst
  · exact orderProgress_held _ _ _ st hst
  · exact keeps_ordersHeld (update_off rfl)
  · split at hst
    · exact activateGrants_held _ _ st hst
    · cases hst

theorem completeManualBatch_held {content : Nat} :
    ∀ st ∈ completeManualBatch d content n now, Within OrdersHeld st := by
  intro st hst
  simp only [completeManualBatch, mem_append, mem_cons, not_mem_nil, or_false] at hst
  rcases hst with (rfl | hst) | hst
  · exact keeps_ordersHeld (update_off rfl)
  · exact orderProgress_held _ _ _ st hst
  · exact activateGrants_held _ _ st hst

theorem startManualBatch_held : ∀ st ∈ startManualBatch d now, Within OrdersHeld st := by
  intro st hst
  refine each_three ?_ ?_ ?_ _ hst
  · exact keeps_ordersHeld (update_off rfl)
  · exact updateOrders_held (fun _ _ => rfl) fun _ _ _ _ => rfl
  · exact keeps_ordersHeld (insert_off rfl)

theorem upgradeBatch_held {row : UpgradeRow} {d : Id} {content : Nat} :
    ∀ st ∈ upgradeBatch row d content now, Within OrdersHeld st := by
  intro st hst
  simp only [upgradeBatch, mem_append, mem_cons, not_mem_nil, or_false] at hst
  rcases hst with ((rfl | rfl) | hst) | rfl | rfl | rfl
  · exact keeps_ordersHeld (update_off rfl)
  · exact keeps_ordersHeld (update_off rfl)
  · exact activateGrants_held _ _ st hst
  · exact completeOrder_held _ _
  · exact keeps_ordersHeld (insert_off rfl)
  · exact keeps_ordersHeld (insert_off rfl)

theorem agentBatch_held {row : AgentRow} {d : Id} : ∀ st ∈ agentBatch row d now, Within OrdersHeld st := by
  intro st hst
  simp only [agentBatch, mem_append, mem_cons, not_mem_nil, or_false] at hst
  rcases hst with ((rfl | rfl) | hst) | rfl | rfl
  · exact keeps_ordersHeld (update_off rfl)
  · exact keeps_ordersHeld (update_off rfl)
  · exact activateGrants_held _ _ st hst
  · exact completeOrder_held _ _
  · exact keeps_ordersHeld (insert_off rfl)

theorem batch_ordersHeld {sts : List (Stmt Db)} (h : ∀ st ∈ sts, Within OrdersHeld st) {c : Nat}
    (hb : batch sts c s = .ok (ns, t)) : OrdersHeld s t :=
  batch_within (fun _ => .of_eq rfl) (fun _ _ _ => .trans) h hb

section

variable (h : DeliveryMove C s t)
include h

theorem DeliveryMove.entriesHeld : EntriesHeld s t := by
  obtain ⟨f, hf, hrows⟩ := h.stock
  intro id e i he hi hs
  refine ⟨f e, ?_, (hf e).item.trans hi, ?_⟩
  · rw [get?_map hrows fun e => (hf e).id, he]
    rfl
  · rcases (hf e).status with hsame | ⟨-, hdel⟩
    · rw [hsame]
      exact hs.imp_right fun hr => ⟨hr.1, hr.1⟩
    · exact Or.inl hdel

theorem DeliveryMove.heldKept (horders : OrdersHeld s t) : HeldKept s t :=
  ⟨h.owners, horders, h.entriesHeld⟩

theorem DeliveryMove.codesHeld (hs : CodesHeld s) (hC : ∀ d ∈ s.deliveries.rows, ∀ x, C d.id x →
      ∀ c ∈ contentCodes x, Delivered t c.entryId d.orderItemId) : CodesHeld t := by
  obtain ⟨f, hf, hrows⟩ := h.deliveries
  refine hs.step h.entriesHeld fun d' hd' => ?_
  rw [hrows] at hd'
  obtain ⟨d, hd, rfl⟩ := mem_map.mp hd'
  rcases (hf d).content with hsame | hnew
  · exact Or.inl ⟨d, hd, (hf d).item, hsame⟩
  · refine Or.inr fun c hc => ?_
    rw [(hf d).item]
    exact hC d hd _ hnew c hc

end

theorem plain_codes : ∀ d ∈ s.deliveries.rows, ∀ x, PlainContent d.id x →
    ∀ c ∈ contentCodes x, Delivered t c.entryId d.orderItemId := by
  rintro d - x ⟨k, rfl⟩ c hc
  cases hc

/-! ### The content of a stock delivery -/

theorem deliverBatch_delivers {id : Id} {e : StockEntry} (hstock : c.deliveryType = .stock)
    (he : s.stock.get? id = some e) (hres : e.status = .reserved) (hi : e.orderItemId = some c.orderItemId)
    (hb : batch (deliverBatch c content n now) 0 s = .ok (ns, t)) : Delivered t id c.orderItemId := by
  unfold deliverBatch at hb
  obtain ⟨_, s4, _, hb4, hgrants, -⟩ := batch_append_ok hb
  obtain ⟨_, s3, _, hb3, hsettle, -⟩ := batch_append_ok hb4
  obtain ⟨_, s2, _, hb2, hprogress, -⟩ := batch_append_ok hb3
  obtain ⟨_, s1, _, hb1, hentries, -⟩ := batch_append_ok hb2
  rw [if_pos hstock] at hentries hgrants
  have hsame : s1.stock = s.stock := by
    refine batch_keeps (g := Db.stock) (fun st hst => ?_) hb1
    exact each_two (update_off rfl) abortWhen_keeps _ hst
  have h2 : Delivered s2 id c.orderItemId := by
    obtain ⟨_, u, _, hupd, hnil, -⟩ := batch_cons_ok hentries
    obtain ⟨-, rfl⟩ := batch_nil_ok hnil
    obtain ⟨-, t1, ht1, rfl⟩ := update_ok hupd
    have hget : t1.get? id = (s1.stock.get? id).map fun e =>
        if e.orderItemId == some c.orderItemId && e.status == .reserved then { e with status := .delivered } else e :=
      get?_map ht1 (fun e => by split <;> rfl) id
    refine ⟨{ e with status := .delivered }, hget.trans ?_, rfl, hi⟩
    rw [hsame, he, Option.map_some, if_pos]
    rw [Bool.and_eq_true, beq_iff_eq, beq_iff_eq]
    exact ⟨hi, hres⟩
  -- what follows delivers entries and takes none back
  have h3 : DeliveryMove PlainContent s2 s3 :=
    batch_deliveryMove (fun st hst => orderProgress_move _ _ _ st hst) hprogress
  have h4 : DeliveryMove PlainContent s3 s4 := by
    refine batch_deliveryMove (fun st hst => ?_) hsettle
    rw [mem_singleton.mp hst]
    exact keeps_deliveryMove (update_off rfl)
  have h5 : DeliveryMove PlainContent s4 t :=
    batch_deliveryMove (fun st hst => activateGrants_move _ _ st hst) hgrants
  exact (h3.trans (h4.trans h5)).entriesHeld.delivered h2

/-! ## The reconciliation -/

structure ReconcileRead (r : ReconcileRef) (s : Db) : Prop where
  record : ∃ d, s.deliveries.get? r.deliveryId = some d ∧ d.orderItemId = r.orderItemId ∧
    d.status = .delivered

theorem ReconcileRead.later (h : ReconcileRead r s) (hr : OwnersKept s t) : ReconcileRead r t := by
  obtain ⟨d, hd, hi, hs⟩ := h.record
  obtain ⟨d', hd', hi', hs'⟩ := hr.deliveries _ d hd
  exact ⟨d', hd', hi'.trans hi, hs' hs⟩

def reconciledEntry (r : ReconcileRef) (e : StockEntry) : StockEntry :=
  if e.id = r.stockId then { e with status := .delivered, orderItemId := some r.orderItemId } else e

def reconciledRecord (r : ReconcileRef) (d : DeliveryRecord) : DeliveryRecord :=
  if d.id = r.deliveryId then { d with contentEncrypted := some (.codes [⟨r.stockId, false⟩]), errorCode := none }
  else d

theorem reconciledEntry_id (r : ReconcileRef) (e : StockEntry) : (reconciledEntry r e).id = e.id := by
  unfold reconciledEntry
  split <;> rfl

theorem reconciledRecord_id (r : ReconcileRef) (d : DeliveryRecord) : (reconciledRecord r d).id = d.id := by
  unfold reconciledRecord
  split <;> rfl

structure ReconcileWrites (r : ReconcileRef) (s t : Db) : Prop where
  receipts : t.stockReceipts.rows = s.stockReceipts.rows ++ [r.receipt]
  stock : t.stock.rows = s.stock.rows.map (reconciledEntry r)
  deliveries : t.deliveries.rows = s.deliveries.rows.map (reconciledRecord r)
  items : t.items = s.items
  orders : t.orders = s.orders

theorem reconcileCurrent_entry (h : reconcileCurrent (.reconcileDeliveredOrder r) s) :
    ∃ e, s.stock.get? r.stockId = some e ∧ e.status = .available ∧ e.converted = false := by
  obtain ⟨e, he, hp⟩ := exist_iff.mp h
  rw [Bool.and_eq_true, Bool.and_eq_true, beq_iff_eq, beq_iff_eq, Bool.not_eq_true'] at hp
  exact ⟨e, get?_eq_some_iff.mpr ⟨he, hp.1.1⟩, hp.1.2, hp.2⟩

theorem reconcileBatch_ok (hread : ReconcileRead r s) (hcond : reconcileCurrent (.reconcileDeliveredOrder r) s)
    (hb : batch (reconcileBatch r) 0 s = .ok (ns, t)) :
    ns.getD 1 0 = 1 ∧ ns.getD 2 0 = 1 ∧ ReconcileWrites r s t := by
  obtain ⟨n1, s1, ns1, h1, hb1, rfl⟩ := batch_cons_ok hb
  obtain ⟨n2, s2, ns2, h2, hb2, rfl⟩ := batch_cons_ok hb1
  obtain ⟨n3, s3, ns3, h3, hb3, rfl⟩ := batch_cons_ok hb2
  obtain ⟨rfl, rfl⟩ := batch_nil_ok hb3
  obtain ⟨-, t1, ht1, rfl⟩ := insert_abort_ok h1
  rcases update_key_cases (q := fun x : StockEntry => x.status == .available) (fun _ => rfl) h2 with
    ⟨-, hnone, -⟩ | ⟨hn2, e, t2, -, -, ht2, rfl⟩
  · obtain ⟨e, he, hes, -⟩ := reconcileCurrent_entry hcond
    have hav := hnone e he
    rw [hes] at hav
    cases hav
  rcases update_key_cases (q := fun x : DeliveryRecord => x.status == .delivered) (fun _ => rfl) h3 with
    ⟨-, hnone, -⟩ | ⟨hn3, d, t3, -, -, ht3, rfl⟩
  · obtain ⟨d, hd, -, hds⟩ := hread.record
    have hdel := hnone d hd
    rw [hds] at hdel
    cases hdel
  exact ⟨hn2, hn3, ht1, ht2, ht3, rfl, rfl⟩

section Writes

variable {r : ReconcileRef} {s t : Db}

section

variable (h : ReconcileWrites r s t)
include h

theorem ReconcileWrites.entriesHeld (hcond : reconcileCurrent (.reconcileDeliveredOrder r) s) : EntriesHeld s t := by
  obtain ⟨e, he, hes, -⟩ := reconcileCurrent_entry hcond
  intro id x i hx hi hxs
  refine ⟨x, ?_, hi, hxs.imp_right fun hr => ⟨hr.1, hr.1⟩⟩
  have hne : x.id ≠ r.stockId := by
    intro heq
    have hxe : x = e := eq_of_key (get?_mem hx) (get?_mem he) (heq.trans (get?_key he).symm)
    rw [hxe, hes] at hxs
    rcases hxs with hd | ⟨hr, -⟩
    · cases hd
    · cases hr
  rw [get?_map h.stock (reconciledEntry_id r), hx, Option.map_some]
  unfold reconciledEntry
  rw [if_neg hne]

theorem ReconcileWrites.heldKept (hcond : reconcileCurrent (.reconcileDeliveredOrder r) s) : HeldKept s t where
  owners := by
    refine ⟨fun id i hi => ⟨i, by rw [h.items]; exact hi, rfl⟩,
      fun id d hd => ⟨reconciledRecord r d, ?_, ?_⟩, fun x hx => ?_⟩
    · rw [get?_map h.deliveries (reconciledRecord_id r), hd]
      rfl
    · unfold reconciledRecord
      split
      · exact ⟨rfl, fun hs => hs⟩
      · exact ⟨rfl, fun hs => hs⟩
    · rw [h.receipts]
      exact mem_append_left _ hx
  orders := .of_eq h.orders
  entries := h.entriesHeld hcond

theorem ReconcileWrites.reconciled (hread : ReconcileRead r s)
    (hcond : reconcileCurrent (.reconcileDeliveredOrder r) s) : Reconciled r t := by
  obtain ⟨e, he, -, hec⟩ := reconcileCurrent_entry hcond
  obtain ⟨d, hd, hdi, -⟩ := hread.record
  have heid : e.id = r.stockId := get?_key he
  have hdid : d.id = r.deliveryId := get?_key hd
  have hentry : reconciledEntry r e =
      { e with status := .delivered, orderItemId := some r.orderItemId } := if_pos heid
  have hrecord : reconciledRecord r d =
      { d with contentEncrypted := some (.codes [⟨r.stockId, false⟩]), errorCode := none } :=
    if_pos hdid
  refine ⟨⟨reconciledRecord r d, reconciledEntry r e, ?_, ?_, ?_, ?_, ?_, ?_⟩, ?_⟩
  · rw [get?_map h.deliveries (reconciledRecord_id r), hd]
    rfl
  · rw [hrecord]
    exact hdi
  · rw [get?_map h.stock (reconciledEntry_id r), he]
    rfl
  · rw [hentry]
  · rw [hentry]
  · rw [hrecord, hentry]
    unfold StockEntry.code
    rw [heid, hec]
  · rw [h.receipts]
    exact mem_append_right _ (mem_singleton.mpr rfl)

theorem ReconcileWrites.codesHeld (hs : CodesHeld s) (hread : ReconcileRead r s)
    (hcond : reconcileCurrent (.reconcileDeliveredOrder r) s) : CodesHeld t := by
  refine hs.step (h.entriesHeld hcond) fun d' hd' => ?_
  rw [h.deliveries] at hd'
  obtain ⟨x, hx, rfl⟩ := mem_map.mp hd'
  by_cases hid : x.id = r.deliveryId
  · refine Or.inr fun c hc => ?_
    obtain ⟨d, hd, hdi, -⟩ := hread.record
    have hxd : x = d := eq_of_key hx (get?_mem hd) (hid.trans (get?_key hd).symm)
    obtain ⟨e, he, -, -⟩ := reconcileCurrent_entry hcond
    have hrecord : reconciledRecord r x =
      { x with contentEncrypted := some (.codes [⟨r.stockId, false⟩]), errorCode := none } :=
        if_pos hid
    rw [hrecord] at hc ⊢
    have hc' : c = ⟨r.stockId, false⟩ := mem_singleton.mp hc
    refine ⟨reconciledEntry r e, ?_, ?_, ?_⟩
    · rw [hc', get?_map h.stock (reconciledEntry_id r), he]
      rfl
    · unfold reconciledEntry
      rw [if_pos (show e.id = r.stockId from get?_key he)]
    · unfold reconciledEntry
      rw [if_pos (show e.id = r.stockId from get?_key he), hxd, hdi]
  · have hsame : reconciledRecord r x = x := if_neg hid
    rw [hsame]
    exact Or.inl ⟨x, hx, rfl, rfl⟩

end

end Writes

/-! ## The calls side by side -/

/-- The shop without admin transitions, the deliveries, and reconciliations. -/
inductive ReconcileCall where
  | shop (c : ShopCall) (h : c.within fun _ => False)
  | delivery (c : DeliveryCall)
  | reconcile (q : ReconcileRequest)

def ReconcileCall.code : ReconcileCall → Prog Db StockSite DomainError Unit
  | .shop c _ => c.code.relabel .shop
  | .delivery c => c.code.void.relabel .shop
  | .reconcile q => (reconcileDeliveredOrder q).void

def reconcileSpec : Spec Db StockSite Empty :=
  .ofRel CodesHeld reconcileCurrent (fun _ _ => True) HeldKept (fun _ => trivial) .refl .trans

theorem reconcile_admits (hi : CodesHeld t) (h : HeldKept s t) : reconcileSpec.Admits ∅ ∅ s t :=
  Spec.admits_ofRel hi trivial fun _ => h

theorem reconcile_admitsSite (hi : CodesHeld t) (h : HeldKept s t) :
    (reconcileSpec.comap StockSite.shop).Admits ∅ ∅ s t :=
  Spec.admits_comap.mpr (reconcile_admits hi h)

theorem reconcile_admitsShop : AdmitsShop (reconcileSpec.comap StockSite.shop) fun _ => False := by
  intro x sts t ns u h hi _ hb
  have hheld : HeldKept t u :=
    batch_within .refl .trans (fun st hst => (h.unpaid st hst).heldKept) hb
  have hidle : RecordsIdle t u :=
    batch_recordsIdle (fun st hst => store_recordsIdle (h.unpaid st hst).store) hb
  exact reconcile_admitsSite (hi.idle hidle hheld.entries) hheld

theorem plain_admits (hi : CodesHeld s) (h : DeliveryMove PlainContent s t) (horders : OrdersHeld s t) :
    (reconcileSpec.comap StockSite.shop).Admits ∅ ∅ s t :=
  reconcile_admitsSite (h.codesHeld hi plain_codes) (h.heldKept horders)

theorem process_codes {u : Db} (hopen : c.orderStatus.deliverable = true)
    (hread : ContentRead (reconcileSpec.comap StockSite.shop) c content t)
    (hb : batch (deliverBatch c content n now) 0 t = .ok (ns, u)) :
    ∀ x ∈ contentCodes content, Delivered u x.entryId c.orderItemId := by
  obtain ⟨s, s', hi, hctx, hr, -, hr', hcontent⟩ := hread
  have hbatch : EntriesHeld t u := (batch_deliveryMove deliverBatch_move hb).entriesHeld
  have hss' : HeldKept s s' := hr
  have hs't : HeldKept s' t := hr'
  simp only [deliveryContext, Option.bind_eq_bind, Option.bind_eq_some_iff, Option.some.injEq] at hctx
  obtain ⟨d, hd, i, hitem, o, ho, rfl⟩ := hctx
  dsimp only at *
  intro x hx
  rcases hcontent with ⟨hstock, cs, rfl, hcs⟩ | rfl
  · -- the entries were reserved for the item of an order that is held
    have hheld : ItemHeld s d.orderItemId := by
      refine ⟨i, o, hitem, ho, ?_⟩
      unfold ShopOrderStatus.held
      unfold ShopOrderStatus.deliverable at hopen
      rw [Bool.or_eq_true]
      exact Or.inl hopen
    have hmem : x.entryId ∈ (reservedEntries s' d.orderItemId).map (·.id) := by
      rw [← hcs]
      exact mem_map_of_mem hx
    obtain ⟨e, he, heid⟩ := mem_map.mp hmem
    unfold reservedEntries at he
    rw [mem_insertionSort, mem_filter, Bool.and_eq_true, beq_iff_eq, beq_iff_eq] at he
    have hget : s'.stock.get? x.entryId = some e := get?_eq_some_iff.mpr ⟨he.1, heid⟩
    obtain ⟨e', he', hi', hs'⟩ := hs't.entries x.entryId e d.orderItemId hget he.2.1
      (Or.inr ⟨he.2.2, hss'.item hheld⟩)
    rcases hs' with hdel | ⟨-, hres⟩
    · exact hbatch.delivered ⟨e', he', hdel, hi'⟩
    · exact deliverBatch_delivers hstock he' hres hi' hb
  · -- the record's own content was held when it was read
    have hsd : Delivered s x.entryId d.orderItemId := hi d (get?_mem hd) x hx
    exact hbatch.delivered (hs't.entries.delivered (hss'.entries.delivered hsd))

theorem reconcile_delivery : DeliverySteps (reconcileSpec.comap StockSite.shop)
    fun d i _ s => ∃ r, s.deliveries.get? d = some r ∧ r.orderItemId = i where
  link s d i o _ hd hi _ := ⟨d, hd, (get?_key hi).symm⟩
  stable d i o s t h hr := by
    obtain ⟨r, hget, hri⟩ := h
    have hheld : HeldKept s t := hr
    obtain ⟨r', hget', hri', -⟩ := hheld.owners.deliveries _ r hget
    exact ⟨r', hget', hri'.trans hri⟩
  idle x t u hi _ h := by
    have hc := h.core
    simp only [deliveryCore, Prod.mk.injEq] at hc
    exact plain_admits hi h.move (.of_eq hc.1.1)
  upgrade row d content now t u ns hi _ _ hb :=
    plain_admits hi (batch_deliveryMove upgradeBatch_move hb) (batch_ordersHeld upgradeBatch_held hb)
  agent row d now t u ns hi _ _ hb :=
    plain_admits hi (batch_deliveryMove agentBatch_move hb) (batch_ordersHeld agentBatch_held hb)
  process c content n now t u ns hi hl hopen hread _ hb := by
    have hmove := batch_deliveryMove deliverBatch_move hb
    refine reconcile_admitsSite (hmove.codesHeld hi ?_) (hmove.heldKept (batch_ordersHeld deliverBatch_held hb))
    rintro d hd x ⟨hid, rfl⟩ k hk
    obtain ⟨r, hget, hri⟩ := hl
    have hdr : d = r := eq_of_key hd (get?_mem hget) (hid.trans (get?_key hget).symm)
    rw [hdr, hri]
    exact process_codes hopen hread hb k hk
  start d now t u ns hi _ _ _ hb :=
    plain_admits hi (batch_deliveryMove startManualBatch_move hb) (batch_ordersHeld startManualBatch_held hb)
  complete d content n now t u ns hi _ _ _ hb :=
    plain_admits hi (batch_deliveryMove completeManualBatch_move hb) (batch_ordersHeld completeManualBatch_held hb)

/-- What an action that changes the database does, at the site of a reconciliation: it writes the code
and the call answers. -/
def ReconcileStep {α : Type} (x : StockSite) (_ t : Db) (k : Prog Db StockSite DomainError α) : Prop :=
  match x with
  | .reconcileDeliveredOrder r => Reconciled r t ∧ ∃ a, k = .done a
  | _ => True

theorem reconcileDeliveredOrder_each (q : ReconcileRequest) (s : Db) :
    Each reconcileSpec ReconcileStep (reconcileDeliveredOrder q) s := by
  unfold reconcileDeliveredOrder
  refine query fun s1 _ _ => ?_
  split
  swap
  · exact throw _
  next d hrows =>
  split
  · exact throw _
  next hsettled =>
  split
  · exact throw _
  split
  · exact throw _
  split
  · exact throw _
  refine query fun s2 h2 _ => ?_
  split
  · split
    · exact throw _
    · exact done _
  refine query fun s3 h3 _ => ?_
  split
  · exact throw _
  next e _ =>
  refine bind (commit fun t ht hi hc ns u hb => ?_) fun ns t _ => ?_
  · have hread : ReconcileRead
        { orderItemId := d.orderItemId, deliveryId := d.deliveryId, stockId := e.id
          receipt :=
            { id := q.receiptId, scope := .restockDeliverySync, orderId := d.orderId
              requestRef := q.requestRef, payloadDigest := q.payloadDigest } } s1 := by
      have hmem : d ∈ deliveriesOfOrder s1 q.orderNumber := by
        rw [hrows]
        exact mem_singleton.mpr rfl
      obtain ⟨-, -, x, hx, hxi, hxs⟩ := deliveriesOfOrder_mem hmem
      refine ⟨x, hx, hxi, hxs.trans ?_⟩
      rw [Bool.not_eq_false] at hsettled
      unfold SingleDelivery.settled at hsettled
      rw [Bool.and_eq_true, Bool.and_eq_true, beq_iff_eq, beq_iff_eq] at hsettled
      exact hsettled.1.2
    have hrely : HeldKept s1 t := h2.trans _ _ _ (h3.trans _ _ _ ht)
    have hread' := hread.later hrely.owners
    obtain ⟨hn1, hn2, hw⟩ := reconcileBatch_ok hread' hc hb
    refine ⟨reconcile_admits (hw.codesHeld hi hread' hc) (hw.heldKept hc),
      hw.reconciled hread' hc, ?_⟩
    have hchanged : ¬(ns.getD 1 0 < 1 ∨ ns.getD 2 0 < 1) := by omega
    exact ⟨{ idempotent := false }, if_neg hchanged⟩
  · split
    · exact throw _
    · exact done _

theorem ReconcileCall.each (c : ReconcileCall) (s : Db) : Each reconcileSpec ReconcileStep c.code s := by
  cases c with
  | shop c h => exact Bare.each (ShopCall.bare reconcile_admitsShop c h s) fun _ _ _ _ => trivial
  | delivery c =>
    exact Bare.each (DeliveryCall.bare reconcile_delivery c s).void fun _ _ _ _ => trivial
  | reconcile q =>
    refine void ((reconcileDeliveredOrder_each q s).mono fun x t u k h => ?_)
    unfold ReconcileStep at h ⊢
    split
    · obtain ⟨hrec, a, rfl⟩ := h
      exact ⟨hrec, (), rfl⟩
    · trivial

def ReconcileAnswers {α : Type} (x : StockSite) (t u : Db) (k : Prog Db StockSite DomainError α) : Prop :=
  match x with
  | .reconcileDeliveredOrder _ => u = t → ∀ a, k ≠ .done a
  | _ => True

theorem reconcileBatch_changes (hb : batch (reconcileBatch r) 0 s = .ok (ns, t)) : t ≠ s := by
  obtain ⟨n1, s1, n2, s2, n3, s3, h1, h2, h3, rfl⟩ := batch_three_ok hb
  obtain ⟨-, t1, ht1, rfl⟩ := insert_abort_ok h1
  have hr2 := Keeps.eq (update_keeps (g := Db.stockReceipts) (T := Db.stockT) fun _ _ => rfl) h2
  have hr3 := Keeps.eq (update_keeps (g := Db.stockReceipts) (T := Db.deliveriesT) fun _ _ => rfl) h3
  intro hsame
  have hrows : s.stockReceipts.rows = s.stockReceipts.rows ++ [r.receipt] := by
    calc s.stockReceipts.rows = s3.stockReceipts.rows := by rw [hsame]
      _ = t1.rows := by rw [hr3, hr2]; rfl
      _ = s.stockReceipts.rows ++ [r.receipt] := ht1
  exact absurd (congrArg length hrows) (by simp)

theorem reconcileDeliveredOrder_leads (q : ReconcileRequest) :
    Leads ReconcileAnswers (reconcileDeliveredOrder q).void := by
  unfold reconcileDeliveredOrder Prog.void
  rw [bind_assoc]
  refine Leads.query fun rows => ?_
  split
  swap
  · trivial
  split
  · trivial
  split
  · trivial
  split
  · trivial
  split
  · trivial
  rw [bind_assoc]
  refine Leads.query fun existing => ?_
  cases existing with
  | some x =>
    dsimp only
    split <;> trivial
  | none =>
    dsimp only
    rw [bind_assoc]
    refine Leads.query fun stock => ?_
    cases stock with
    | none => trivial
    | some e =>
      dsimp only
      rw [bind_assoc]
      refine Leads.commit (fun t a _ b hk => nomatch hk) (fun t ns u hb hsame => ?_) fun ns => ?_
      · exact absurd hsame (reconcileBatch_changes hb)
      · split <;> trivial

theorem ReconcileCall.leads (c : ReconcileCall) : Leads ReconcileAnswers c.code := by
  cases c with
  | shop c h => exact Leads.relabel (fun _ _ _ _ => trivial) _
  | delivery c => exact Leads.relabel (fun _ _ _ _ => trivial) _
  | reconcile q => exact reconcileDeliveredOrder_leads q

/-! ## Reconciliations take effect as a whole -/

/-- In every run whose reconciliations are current, no code is the content of two orders, and a
reconciliation either answers and has written its code, or changes nothing and does not answer. -/
theorem reconcile_atomic {s : Db} (h0 : CodesHeld s) {w : World Db StockSite DomainError Unit}
    (hrun : Runs ReconcileCall.code reconcileCurrent ⟨s, []⟩ w) :
    CodesSoldOnce w.db ∧ ∀ i r, w.site i = some (.reconcileDeliveredOrder r) →
      Reconciled r (w.move ReconcileCall.code reconcileCurrent (.run i)).db ∧
          (w.move ReconcileCall.code reconcileCurrent (.run i)).calls[i]? = some (.done ()) ∨
        (w.move ReconcileCall.code reconcileCurrent (.run i)).db = w.db ∧
          (w.move ReconcileCall.code reconcileCurrent (.run i)).calls[i]? ≠ some (.done ()) := by
  let _ : ∀ x s, Decidable (reconcileSpec.cond x s) :=
    fun x s => inferInstanceAs (Decidable (reconcileCurrent x s))
  have heach := fun (c : ReconcileCall) (s : Db) (_ : CodesHeld s) => ReconcileCall.each c s
  obtain ⟨hi, -, -⟩ := Runs.each (S := reconcileSpec) heach h0 hrun
  have hcodes : CodesHeld w.db := hi
  refine ⟨hcodes.soldOnce, fun i r hsite => ?_⟩
  rcases Runs.move (S := reconcileSpec) heach h0 hrun hsite with hsame | ⟨k, hk, -, hrec, a, rfl⟩
  · refine Or.inr ⟨hsame, fun hdone => ?_⟩
    by_cases hc : reconcileCurrent (.reconcileDeliveredOrder r) w.db
    · obtain ⟨k, hk, hleads⟩ := Runs.leads_move ReconcileCall.leads hrun hsite hc
      have hk' : some k = some (.done ()) := hk.symm.trans hdone
      exact hleads hsame () (Option.some.inj hk')
    · -- a move that is not allowed leaves the call where it is
      unfold site at hsite
      simp only [move] at hdone
      split at hdone
      · next l β f k hcall =>
        rw [hcall] at hsite
        obtain rfl : l = some (.reconcileDeliveredOrder r) := hsite
        rw [if_neg] at hdone
        · rw [hcall] at hdone
          cases hdone
        · intro hall
          exact hc (hall _ rfl)
      · next hno =>
        rw [hdone] at hsite
        cases hsite
  · exact Or.inl ⟨hrec, hk⟩

/-! ## Two runs -/

/-- Order 1 was delivered by hand; code 11 of its item is free, and order 2 waits for the same. -/
def soldByHandDb : Db :=
  { paidOrderDb with
    orders := .ok [{ id := 1, status := .completed, version := 1, totalMinor := 100, paidMinor := 100 },
                   { id := 2, orderNumber := 2, status := .pendingPayment, version := 1
                     totalMinor := 0, paidMinor := 0 }]
    sellableItems := .ok [{ id := 1 }]
    items := .ok [{ id := 1, orderId := 1, sellableItemId := 1, deliveryComponentId := 1
                    deliveryComponentType := .stock, quantity := 1 },
                  { id := 2, orderId := 2, sellableItemId := 1, deliveryComponentId := 1
                    deliveryComponentType := .stock, quantity := 1 }]
    deliveries := .ok [{ id := 1, orderItemId := 1, deliveryType := .stock, status := .delivered
                         contentEncrypted := some (.text 3) }]
    stock := .ok [{ id := 11, sellableItemId := 1, status := .available }] }

def reconcileCode11 : ReconcileRequest where
  requestRef := 5
  orderNumber := 0
  fingerprint := 11
  payloadDigest := 7
  receiptId := 1
  commerceSecret := true
  valid := true

def code11ForItem1 : ReconcileRef where
  orderItemId := 1
  deliveryId := 1
  stockId := 11
  receipt := { id := 1, scope := .restockDeliverySync, orderId := 1, requestRef := 5, payloadDigest := 7 }

def reconcileReads : List (Move ReconcileCall) :=
  .start (.reconcile reconcileCode11) :: List.replicate 3 (.run 0)

def reconcileReadRun : World Db StockSite DomainError Unit :=
  World.exec ReconcileCall.code reconcileCurrent ⟨soldByHandDb, []⟩ reconcileReads

theorem soldByHand_codesHeld : CodesHeld soldByHandDb := by
  intro d hd c hc
  obtain rfl := mem_singleton.mp hd
  cases hc

theorem reconcile_atomic_reconcileReadRun :
    CodesSoldOnce (reconcileReadRun.move ReconcileCall.code reconcileCurrent (.run 0)).db ∧ Reconciled code11ForItem1
        (reconcileReadRun.move ReconcileCall.code reconcileCurrent (.run 0)).db := by
  have hrun : Runs ReconcileCall.code reconcileCurrent ⟨soldByHandDb, []⟩ reconcileReadRun :=
    exec_runs ReconcileCall.code reconcileCurrent _ _
  have hnext := hrun.trans (move_runs ReconcileCall.code reconcileCurrent reconcileReadRun (.run 0))
  have hsite : reconcileReadRun.site 0 = some (.reconcileDeliveredOrder code11ForItem1) := by
    decide
  refine ⟨(reconcile_atomic soldByHand_codesHeld hnext).1, ?_⟩
  rcases (reconcile_atomic soldByHand_codesHeld hrun).2 0 code11ForItem1 hsite with h | ⟨hsame, -⟩
  · exact h.1
  · have hstock := congrArg (fun s : Db => s.stock.rows.map (·.status)) hsame
    exact absurd hstock (by decide)

/-- The payment of order 2 takes the code between the reads of the reconciliation and its batch. -/
def takenMeanwhileRun : World Db StockSite DomainError Unit :=
  World.exec ReconcileCall.code anySite ⟨soldByHandDb, []⟩ (reconcileReads ++
      Move.start (.shop (.completeFree 2 none ⟨5, fun _ => ⟨2, 2, 2, 2⟩⟩) trivial) :: List.replicate 5 (Move.run 1))

/-- The reconciliation fails with the conflict, and its receipt is written. -/
theorem not_reconcile_atomic : ¬∀ s, CodesHeld s → ∀ w : World Db StockSite DomainError Unit,
      Runs ReconcileCall.code anySite ⟨s, []⟩ w → ∀ i r, w.site i = some (.reconcileDeliveredOrder r) →
        (w.move ReconcileCall.code anySite (.run i)).calls[i]? = some (.fail (.thrown restockReconcileConflict)) →
          (w.move ReconcileCall.code anySite (.run i)).db = w.db := by
  intro h
  have hsite : takenMeanwhileRun.site 0 = some (.reconcileDeliveredOrder code11ForItem1) := by
    decide
  have hfails : (takenMeanwhileRun.move ReconcileCall.code anySite (.run 0)).calls[0]? =
      some (.fail (.thrown restockReconcileConflict)) := by rfl
  have hsame := h soldByHandDb soldByHand_codesHeld takenMeanwhileRun
    (exec_runs ReconcileCall.code anySite _ _) 0 code11ForItem1 hsite hfails
  have hreceipts := congrArg (fun s : Db => s.stockReceipts.rows.map (·.id)) hsame
  exact absurd hreceipts (by decide)

end Gmshop
