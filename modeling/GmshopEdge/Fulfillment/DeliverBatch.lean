import GmshopEdge.Fulfillment.System
import GmshopEdge.Lib.Total

/-!
# When the batch of a delivery goes through

The batch of `processDelivery` for a stock delivery, with nothing between its reads and itself: all its statements go
through but the event's. The event is refused where it would be between two equal statuses, or of a version that the
order already has an event of; then the batch aborts (`deliverBatch_runs`).
-/

namespace Gmshop

open List Sql Stmt

/-! ## Statements that go through -/

theorem stackedLimit_ne_zero {granted limit : Option Nat} {prior : Bool} (h : granted ≠ some 0) :
    stackedLimit granted prior limit ≠ some 0 := by
  cases granted with
  | none => nofun
  | some n =>
    have hn : n ≠ 0 := fun h0 => h (congrArg some h0)
    cases prior with
    | false => exact h
    | true =>
      show limit.map (· + n) ≠ some 0
      cases limit with
      | none => nofun
      | some l =>
        intro hsum
        have : l + n = 0 := Option.some.inj hsum
        omega

theorem activation_total (orderItemId : Id) (now : Time) :
    ∀ st ∈ activateEntitlementGrantStatements orderItemId now, Total st := by
  intro st hst
  refine each_two ?_ ?_ _ hst
  · intro c s
    have hgranted : ∀ key : EntitlementGrant → Option Nat, (∀ g, Row.valid g = true → key g ≠ some 0) →
        (grantOf s orderItemId).bind key ≠ some 0 := by
      intro key hkey
      cases hgrant : grantOf s orderItemId with
      | none => nofun
      | some g => exact hkey g (s.grants.valid g (mem_of_find?_eq_some hgrant))
    have hvalid : ∀ g : EntitlementGrant, Row.valid g = true → g.usageGranted ≠ some 0 ∧ g.accessGranted ≠ some 0 := by
      intro g hg
      have hg : (decide (g.durationMs ≠ some 0) && decide (g.usageGranted ≠ some 0) &&
        decide (g.accessGranted ≠ some 0)) = true := hg
      rw [Bool.and_eq_true, Bool.and_eq_true] at hg
      exact ⟨of_decide_eq_true hg.1.2, of_decide_eq_true hg.2⟩
    obtain ⟨t, -, h⟩ := update_runs (T := Db.entitlementsT) (s := s)
      (p := fun s e => s.grants.exist fun g => appliableGrant s orderItemId false g && g.entitlementId == e.id)
      (f := fun s e =>
        let grant := grantOf s orderItemId
        let prior := s.grants.exist fun g => g.entitlementId == e.id && g.status == .active
        { e with
          status := .active
          usageLimit := stackedLimit (grant.bind (·.usageGranted)) prior e.usageLimit
          accessLimit := stackedLimit (grant.bind (·.accessGranted)) prior e.accessLimit
          activatedAt := some (e.activatedAt.getD now)
          expiresAt := stackedExpiry (grant.bind (·.durationMs)) prior e.expiresAt now })
      (fun a _ b _ hab => by
        split <;> split <;> exact hab)
      (fun e he => by
        split
        · show (decide (stackedLimit _ _ _ ≠ some 0) && decide (stackedLimit _ _ _ ≠ some 0)) = true
          rw [Bool.and_eq_true, decide_eq_true_eq, decide_eq_true_eq]
          exact ⟨stackedLimit_ne_zero (hgranted _ fun g hg => (hvalid g hg).1),
            stackedLimit_ne_zero (hgranted _ fun g hg => (hvalid g hg).2)⟩
        · exact s.entitlements.valid e he) c
    exact ⟨_, _, h⟩
  · refine update_isTotal (fun s a b => ?_) fun s r => ?_
    · split <;> split <;> rfl
    · split <;> rfl

theorem deliveryReady_total (deliveryId : Id) : Total (deliveryReadyStatement deliveryId) :=
  insert_isTotal fun _ _ _ => rfl

theorem settleDeliveryRequest_total (deliveryId : Id) : Total (settleDeliveryRequest deliveryId) :=
  update_isTotal (fun s a b => by split <;> split <;> rfl) fun _ _ => rfl

theorem orderUpdate_runs {p : Db → ShopOrder → Bool} {k v : Nat} {q : ShopOrder → Bool} (next : ShopOrderStatus)
    (now : Time) {s : Db} (hp : ∀ o, p s o = (KeyedRow.key o == k && q o)) (hv : 0 < v)
    (hpaid : next ≠ .paid ∧ next ≠ .cancelled ∧ next ≠ .expired) (c : Nat) :
    ∃ n t, updateOrders p (fun _ o => setStatus next v now o) c s = .ok (n, t) := by
  refine updateEach_runs hp (fun o ho _ => ?_) c
  have hguards : orderPaidGuards o (setStatus next v now o) = [] := if_neg fun h => hpaid.1 h.1
  have hrelease : promotionCouponRelease o (setStatus next v now o) = [] :=
    if_neg fun h => h.2.elim hpaid.2.1 hpaid.2.2
  obtain ⟨t, -, hrow⟩ := update_runs (T := Db.ordersT) (s := s)
    (p := fun _ x => KeyedRow.key x == KeyedRow.key o) (f := fun _ _ => setStatus next v now o)
    (fun a ha b hb hab => by
      have hsame : ∀ x ∈ s.orders.rows, (if (KeyedRow.key x == KeyedRow.key o) = true then setStatus next v now o
          else x) = if (KeyedRow.key x == KeyedRow.key o) = true then setStatus next v now x else x := by
        intro x hx
        by_cases hkey : (KeyedRow.key x == KeyedRow.key o) = true
        · rw [if_pos hkey, if_pos hkey, Table.eq_of_key hx (Table.get?_mem ho) (eq_of_beq hkey)]
        · rw [if_neg hkey, if_neg hkey]
      rw [hsame a ha, hsame b hb]
      split <;> split <;> exact hab)
    (fun x hx => by
      split
      · exact decide_eq_true hv
      · exact s.orders.valid x hx) 0
  have hafter : ∀ st ∈ orderBalanceLifecycle o (setStatus next v now o), Total st := by
    intro st hst
    refine each_three ?_ ?_ ?_ _ hst
    · refine updateEach_none fun s h => ?_
      -- no status that moves a hold
      have hstatus : ((setStatus next v now o).status == .paid || (setStatus next v now o).status == .cancelled ||
          (setStatus next v now o).status == .expired) = false := by
        rw [Bool.or_eq_false_iff, Bool.or_eq_false_iff]
        exact ⟨⟨beq_false_of_ne hpaid.1, beq_false_of_ne hpaid.2.1⟩, beq_false_of_ne hpaid.2.2⟩
      rw [hstatus, Bool.and_false]
    · exact insert_isTotal fun s r hr => by
        rw [if_neg fun h => hpaid.1 h.1] at hr
        cases hr
    · refine update_isTotal (fun s a b => ?_) fun s r => ?_
      · split <;> split <;> rfl
      · split <;> rfl
  obtain ⟨ns, u, hlife⟩ := batch_total hafter 0 (Db.ordersT.set s t)
  refine ⟨u, ?_⟩
  simp only [updateRow, hguards, hrelease, nil_append, batch_nil, hrow, hlife, bind, Except.bind]

theorem orderSwap_total (k version v : Nat) (status : ShopOrderStatus) {next : ShopOrderStatus} (now : Time) (hv : 0 < v)
    (hnext : next = .fulfilling ∨ next = .completed) :
    Total (updateOrders (fun _ o => orderCas k status version o) fun _ o => setStatus next v now o) := by
  intro c s
  refine orderUpdate_runs _ _ (k := k) (q := fun o => o.status == status && o.version == version) (fun _ => rfl) hv ?_ c
  rcases hnext with rfl | rfl <;> exact ⟨nofun, nofun, nofun⟩

/-! ## The batch of a run -/

def progressEvent (d : DeliveryRef) (remaining : Nat) : ShopOrderEvent where
  orderId := d.orderId
  eventType := .deliveryProgressed
  fromStatus := some d.orderStatus
  toStatus := some (nextOrderStatus remaining)
  orderVersion := some (d.orderVersion + 1)

def progressStatement (d : DeliveryRef) (remaining : Nat) : Stmt Db :=
  insert Db.eventsT .abort fun s =>
    s.fromOrder d.orderId (fun o => o.status == nextOrderStatus remaining && o.version == d.orderVersion + 1) fun o =>
      { progressEvent d remaining with orderId := o.id }

def deliverRecord (c : DeliveryContext) (content : Option DeliveryContent) : List (Stmt Db) :=
  [update Db.deliveriesT (fun s d => d.id == c.id && d.status.queued && s.itemDeliverable d.orderItemId &&
        (c.redeemSku.isNone || redeemReady s d))
      (fun _ d => deliveredRecord content d),
    abortWhen (fun _ s => !(s.deliveries.exist fun d => d.id == c.id && d.status == .delivered))
      (if c.redeemSku.isSome then "redeem_delivery_conflict" else "delivery_conflict")]

def moveOrder (c : DeliveryContext) (remaining : Nat) (now : Time) : List (Stmt Db) :=
  [update Db.stockT (fun _ e => e.orderItemId == some c.orderItemId && e.status == .reserved)
      (fun _ e => { e with status := .delivered }),
    updateOrders (fun _ o => orderCas c.orderId c.orderStatus c.orderVersion o)
      (fun _ o => setStatus (nextOrderStatus remaining) (c.orderVersion + 1) now o)]

theorem deliverBatch_stock {c : DeliveryContext} {content : Option DeliveryContent} {remaining : Nat} {now : Time}
    (h : c.deliveryType = .stock) : deliverBatch c content remaining now =
      deliverRecord c content ++ (moveOrder c remaining now ++ progressStatement c.toDeliveryRef remaining ::
        deliveryReadyStatement c.id :: settleDeliveryRequest c.id ::
          activateEntitlementGrantStatements c.orderItemId now) := by
  unfold deliverBatch orderProgressStatements
  rw [if_pos h, if_pos h]
  rfl

/-- What the batch finds where nothing came between its reads and itself. -/
structure Unchanged (c : DeliveryContext) (o : ShopOrder) (s : Db) : Prop where
  record : ∃ r, s.deliveries.get? c.id = some r ∧ r.status.queued = true ∧ r.orderItemId = c.orderItemId ∧
    (c.redeemSku.isNone || redeemReady s r) = true
  deliverable : s.itemDeliverable c.orderItemId = true
  order : s.orders.get? c.orderId = some o
  cas : orderCas c.orderId c.orderStatus c.orderVersion o = true

def VersionFree (orderId : Id) (version : Nat) (s : Db) : Prop :=
  ∀ ev ∈ s.events.rows, ev.orderId = orderId → ev.orderVersion ≠ some version

def OrderMoves (d : DeliveryRef) (remaining : Nat) (s : Db) : Prop :=
  nextOrderStatus remaining ≠ d.orderStatus ∧ VersionFree d.orderId (d.orderVersion + 1) s

/-- The record is delivered with the stock of its item, and the order at its next version, with an event of it. -/
structure Delivers (c : DeliveryContext) (content : Option DeliveryContent) (o' : ShopOrder) (s t : Db) : Prop where
  deliveries : t.deliveries.rows = s.deliveries.rows.map fun d => if d.id = c.id then deliveredRecord content d else d
  stock : t.stock.rows = s.stock.rows.map fun e =>
    if e.orderItemId == some c.orderItemId && e.status == .reserved then { e with status := .delivered } else e
  order : t.orders.get? c.orderId = some o'
  items : t.items = s.items
  upgrades : t.upgradeOrders = s.upgradeOrders
  access : t.agentOrders = s.agentOrders
  events : ∃ ev, t.events.rows = s.events.rows ++ [ev] ∧ ev.orderId = c.orderId ∧
    ev.orderVersion = some (c.orderVersion + 1)

theorem nextOrderStatus_cases (remaining : Nat) :
    nextOrderStatus remaining = .fulfilling ∨ nextOrderStatus remaining = .completed := by
  unfold nextOrderStatus
  by_cases h : remaining = 0
  · exact .inr (if_pos h)
  · exact .inl (if_neg h)

section Batch

variable {c : DeliveryContext} {content : Option DeliveryContent} {remaining : Nat} {now : Time} {o : ShopOrder} {s : Db}

variable (content) in
theorem deliverRecord_runs (h : Unchanged c o s) : ∃ td : Table DeliveryRecord,
    (td.rows = s.deliveries.rows.map fun d => if d.id = c.id then deliveredRecord content d else d) ∧
      batch (deliverRecord c content) 0 s = .ok ([1, 1], Db.deliveriesT.set s td) := by
  obtain ⟨r, hr, hqueued, hitem, hready⟩ := h.record
  let meets (d : DeliveryRecord) : Bool :=
    d.status.queued && s.itemDeliverable d.orderItemId && (c.redeemSku.isNone || redeemReady s d)
  have hmeets : meets r = true := by
    show (r.status.queued && s.itemDeliverable r.orderItemId && (c.redeemSku.isNone || redeemReady s r)) = true
    rw [hqueued, hitem, h.deliverable, hready]
    rfl
  have hwhere : ∀ d : DeliveryRecord, (d.id == c.id && d.status.queued && s.itemDeliverable d.orderItemId &&
      (c.redeemSku.isNone || redeemReady s d)) = (KeyedRow.key d == c.id && meets d) := by
    intro d
    rw [Bool.and_assoc, Bool.and_assoc]
    show _ = (_ && (d.status.queued && s.itemDeliverable d.orderItemId && (c.redeemSku.isNone || redeemReady s d)))
    rw [Bool.and_assoc]
    rfl
  obtain ⟨td, hrows, hd⟩ := update_total (T := Db.deliveriesT) (s := s)
    (p := fun s d => d.id == c.id && d.status.queued && s.itemDeliverable d.orderItemId &&
      (c.redeemSku.isNone || redeemReady s d)) (f := fun _ d => deliveredRecord content d)
    (fun a b => by split <;> split <;> rfl) (fun _ => rfl) 0
  have hdeliveries : td.rows = s.deliveries.rows.map fun d => if d.id = c.id then deliveredRecord content d else d := by
    rw [hrows]
    refine List.map_congr_left fun d hmem => ?_
    rw [hwhere]
    by_cases hid : d.id = c.id
    · obtain rfl := Table.eq_of_key hmem (Table.get?_mem hr) (hid.trans (Table.get?_key hr).symm)
      rw [if_pos hid, if_pos (by rw [hmeets, Bool.and_true]; exact beq_iff_eq.mpr hid)]
    · have hmiss : ¬(KeyedRow.key d == c.id && meets d) = true :=
        fun hp => hid (eq_of_beq (Bool.and_eq_true_iff.mp hp).1)
      rw [if_neg hid, if_neg hmiss]
  have hcount : (Db.deliveriesT.get s).count (fun d => d.id == c.id && d.status.queued &&
      s.itemDeliverable d.orderItemId && (c.redeemSku.isNone || redeemReady s d)) = 1 := by
    rw [show (fun d : DeliveryRecord => d.id == c.id && d.status.queued && s.itemDeliverable d.orderItemId &&
      (c.redeemSku.isNone || redeemReady s d)) = fun d => KeyedRow.key d == c.id && meets d from funext hwhere,
      show Db.deliveriesT.get s = s.deliveries from rfl, Table.count_key, hr, Option.filter_some_pos hmeets]
    rfl
  have hcheck : td.exist (fun d => d.id == c.id && d.status == .delivered) = true := by
    refine Table.exist_iff.mpr ⟨deliveredRecord content r, ?_, ?_⟩
    · rw [hdeliveries]
      exact List.mem_map.mpr ⟨r, Table.get?_mem hr, if_pos (Table.get?_key hr)⟩
    · rw [Bool.and_eq_true, beq_iff_eq, beq_iff_eq]
      exact ⟨Table.get?_key hr, rfl⟩
  refine ⟨td, hdeliveries, ?_⟩
  rw [hcount] at hd
  have habort : abortWhen (fun _ (s : Db) => !(s.deliveries.exist fun d => d.id == c.id && d.status == .delivered))
      (if c.redeemSku.isSome then "redeem_delivery_conflict" else "delivery_conflict") 1 (Db.deliveriesT.set s td) =
      .ok (1, Db.deliveriesT.set s td) := by
    show (if (!td.exist fun d => d.id == c.id && d.status == .delivered) = true then _ else _) = _
    rw [hcheck]
    rfl
  simp only [deliverRecord, batch, hd, habort, bind, Except.bind]

variable (remaining now) in
theorem moveOrder_runs (hv : s.orders.get? c.orderId = some o)
    (hcas : orderCas c.orderId c.orderStatus c.orderVersion o = true) (k : Nat) :
    ∃ ns t, batch (moveOrder c remaining now) k s = .ok (ns, t) ∧ (t.stock.rows = s.stock.rows.map fun e =>
        if e.orderItemId == some c.orderItemId && e.status == .reserved then { e with status := .delivered } else e) ∧
      t.orders.get? c.orderId = some (setStatus (nextOrderStatus remaining) (c.orderVersion + 1) now o) ∧
      (t.deliveries, t.items, t.upgradeOrders, t.agentOrders, t.events) =
        (s.deliveries, s.items, s.upgradeOrders, s.agentOrders, s.events) := by
  obtain ⟨ts, hrows, hs⟩ := update_total (T := Db.stockT) (s := s)
    (p := fun _ e => e.orderItemId == some c.orderItemId && e.status == .reserved)
    (f := fun _ e => { e with status := .delivered })
    (fun a b => by split <;> split <;> rfl) (fun _ => rfl) k
  generalize (Db.stockT.get s).count _ = m at hs
  obtain ⟨n, t, ho⟩ := orderSwap_total c.orderId c.orderVersion (c.orderVersion + 1) c.orderStatus now
    (Nat.succ_pos _) (nextOrderStatus_cases remaining) m (Db.stockT.set s ts)
  have hkept := Keeps.eq (updateOrders_keeps (by constructor <;> exact fun _ _ => rfl) fun _ _ => rfl) ho
    (g := fun s : Db => (s.stock, s.deliveries, s.items, s.upgradeOrders, s.agentOrders, s.events))
  have horders := (updateOrders_rows (f := fun _ o => setStatus (nextOrderStatus remaining) (c.orderVersion + 1) now o)
    (fun _ _ => rfl) ho).2
  refine ⟨[m, n], t, by simp only [moveOrder, batch, hs, ho, bind, Except.bind], ?_, ?_, congrArg Prod.snd hkept⟩
  · rw [show t.stock = ts from congrArg Prod.fst hkept]
    exact hrows
  · rw [Table.get?_map horders (fun y => by split <;> rfl) c.orderId,
      show (Db.stockT.set s ts).orders = s.orders from rfl, hv, Option.map_some, if_pos hcas]

theorem progress_row {d : DeliveryRef} (horder : s.orders.get? d.orderId = some o)
    (hstatus : o.status = nextOrderStatus remaining) (hversion : o.version = d.orderVersion + 1) :
    s.fromOrder d.orderId (fun o => o.status == nextOrderStatus remaining && o.version == d.orderVersion + 1)
      (fun o => { progressEvent d remaining with orderId := o.id }) = [progressEvent d remaining] := by
  have hid : o.id = d.orderId := Table.get?_key horder
  rw [fromOrder_some horder (by rw [hstatus, hversion, beq_self_eq_true, beq_self_eq_true]; rfl), hid]
  rfl

variable (remaining) in
theorem progress_runs (d : DeliveryRef) (horder : s.orders.get? d.orderId = some o)
    (hstatus : o.status = nextOrderStatus remaining) (hversion : o.version = d.orderVersion + 1) (k : Nat) :
    (∃ n t, progressStatement d remaining k s = .ok (n, t)) ↔ OrderMoves d remaining s := by
  have hclash : ∀ x : ShopOrderEvent, Row.clash x (progressEvent d remaining) = false ↔
      (x.orderId = d.orderId → x.orderVersion ≠ some (d.orderVersion + 1)) := by
    intro x
    have hshown : Row.clash x (progressEvent d remaining) =
        (x.orderId == d.orderId && x.orderVersion == some (d.orderVersion + 1) && x.orderVersion.isSome ||
          (x.id == none && x.id.isSome)) := rfl
    have hrandom : (x.id == none && x.id.isSome) = false := by
      cases x.id <;> rfl
    rw [hshown, hrandom, Bool.or_false]
    constructor
    · intro hfree horder hsome
      rw [horder, hsome, beq_self_eq_true, beq_self_eq_true] at hfree
      cases hfree
    · intro hfree
      by_contra hhit
      rw [Bool.not_eq_false, Bool.and_eq_true, Bool.and_eq_true, beq_iff_eq, beq_iff_eq] at hhit
      exact hfree hhit.1.1 hhit.1.2
  refine (insert_one (T := Db.eventsT) (progress_row horder hstatus hversion) k).trans ⟨fun h => ?_, fun h => ?_⟩
  · exact ⟨Ne.symm (of_decide_eq_true h.1), fun ev hev => (hclash ev).mp (h.2 ev hev)⟩
  · exact ⟨decide_eq_true (Ne.symm h.1), fun ev hev => (hclash ev).mpr (h.2 ev hev)⟩

theorem deliverRest_runs (c : DeliveryContext) (now : Time) (k : Nat) (s : Db) :
    ∃ ns t, batch (deliveryReadyStatement c.id :: settleDeliveryRequest c.id ::
      activateEntitlementGrantStatements c.orderItemId now) k s = .ok (ns, t) ∧
        (t.deliveries, t.stock, t.orders, t.items, t.upgradeOrders, t.agentOrders, t.events) =
          (s.deliveries, s.stock, s.orders, s.items, s.upgradeOrders, s.agentOrders, s.events) := by
  have htotal : ∀ st ∈ deliveryReadyStatement c.id :: settleDeliveryRequest c.id ::
      activateEntitlementGrantStatements c.orderItemId now, Total st := by
    intro st hst
    rcases mem_cons.mp hst with rfl | hst
    · exact deliveryReady_total c.id
    rcases mem_cons.mp hst with rfl | hst
    · exact settleDeliveryRequest_total c.id
    · exact activation_total _ _ st hst
  obtain ⟨ns, t, hb⟩ := batch_total htotal k s
  refine ⟨ns, t, hb, batch_keeps (g := fun s : Db =>
    (s.deliveries, s.stock, s.orders, s.items, s.upgradeOrders, s.agentOrders, s.events)) (fun st hst => ?_) hb⟩
  rcases mem_cons.mp hst with rfl | hst
  · exact insert_off rfl
  rcases mem_cons.mp hst with rfl | hst
  · exact update_off rfl
  · exact activateEntitlementGrantStatements_keep ⟨fun _ _ => rfl, fun _ _ => rfl⟩ _ _ _ st hst

variable (content remaining now) in
/-- The batch goes through where the order moves on, and else aborts on its event. -/
theorem deliverBatch_runs (h : Unchanged c o s) (hstock : c.deliveryType = .stock) :
    (OrderMoves c.toDeliveryRef remaining s → ∃ ns t, batch (deliverBatch c content remaining now) 0 s = .ok (1 :: ns, t) ∧
        Delivers c content (setStatus (nextOrderStatus remaining) (c.orderVersion + 1) now o) s t) ∧
    (¬OrderMoves c.toDeliveryRef remaining s → ∃ a, batch (deliverBatch c content remaining now) 0 s = .error a) := by
  obtain ⟨td, hdeliveries, hrecord⟩ := deliverRecord_runs content h
  obtain ⟨ns, s1, hmove, hs1, horder, hkept⟩ := moveOrder_runs remaining now
    (s := Db.deliveriesT.set s td) h.order h.cas (([1, 1] : List Nat).getLast?.getD 0)
  simp only [Prod.mk.injEq] at hkept
  obtain ⟨hkd, hki, hku, hka, hke⟩ := hkept
  have hevent := progress_runs remaining c.toDeliveryRef horder rfl rfl
    (ns.getLast?.getD (([1, 1] : List Nat).getLast?.getD 0))
  have hmoves : OrderMoves c.toDeliveryRef remaining s1 ↔ OrderMoves c.toDeliveryRef remaining s := by
    unfold OrderMoves VersionFree
    rw [hke]
    exact Iff.rfl
  rw [hmoves] at hevent
  rw [deliverBatch_stock hstock, batch_append _ hrecord, batch_append _ hmove, batch]
  constructor
  · intro hgo
    obtain ⟨n, s2, hn⟩ := hevent.mpr hgo
    obtain ⟨-, te, hte, rfl⟩ := insert_abort_ok hn
    rw [progress_row (d := c.toDeliveryRef) horder rfl rfl] at hte
    obtain ⟨ns', t, hrest, hkept'⟩ := deliverRest_runs c now n (Db.eventsT.set s1 te)
    simp only [Prod.mk.injEq] at hkept'
    obtain ⟨hd, hs, ho, hi, hu, ha, he⟩ := hkept'
    refine ⟨_, t, by rw [hn]; simp only [hrest, bind, Except.bind, Except.map]; rfl, ?_⟩
    refine ⟨hd ▸ hkd ▸ hdeliveries, hs ▸ hs1, ho ▸ horder, hi.trans hki, hu.trans hku, ha.trans hka,
      progressEvent c.toDeliveryRef remaining, ?_, rfl, rfl⟩
    rw [he]
    show te.rows = _
    rw [hte, show Db.eventsT.get s1 = s1.events from rfl, hke]
    rfl
  · intro hstays
    cases hn : progressStatement c.toDeliveryRef remaining
        (ns.getLast?.getD (([1, 1] : List Nat).getLast?.getD 0)) s1 with
    | ok r => exact absurd (hevent.mp ⟨r.1, r.2, hn⟩) hstays
    | error a => exact ⟨a, rfl⟩

end Batch

end Gmshop
