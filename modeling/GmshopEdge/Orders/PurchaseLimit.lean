import GmshopEdge.Promotions.CouponUse
import GmshopEdge.Lib.Checked

/-!
# The purchase limit of a plan for one customer

`assertPurchaseLimit` reads what a customer has bought of a plan before the batch of the checkout, and the
batch does not ask again; the late payment of an expired order never asks. So the limit holds as long as
both commit only where the quantities still fit (`purchaseRoom`), and two checkouts side by side break
it.
-/

namespace Gmshop

open List Sql Stmt Prog Bool

/-! ## The property -/

/-- No customer has bought more of a plan than its limit for one customer. -/
def WithinPurchaseLimits (s : Db) : Prop :=
  ∀ psi ∈ s.sellableItems.rows, ∀ l ∈ psi.maximumPerCustomer, ∀ customer, purchasedQuantity s customer psi.id ≤ l

def ShopOrder.customer (o : ShopOrder) : Option Customer :=
  (o.userId.map Customer.user).orElse fun _ => o.normalizedContactEmail.map Customer.guest

variable {o : ShopOrder} {customer : Customer} {s t u : Db} {st : Stmt Db} {money paying : Prop}
  {c : Checkout} {coupon : Option (Coupon × Nat)}

theorem owns_iff : customer.owns o = true ↔ o.customer = some customer := by
  unfold Customer.owns ShopOrder.customer
  cases customer with
  | user id => cases o.userId <;> cases o.normalizedContactEmail <;> simp
  | guest email => cases o.userId <;> cases o.normalizedContactEmail <;> simp

def orderQuantity (s : Db) (orderId sellableItemId : Id) : Nat :=
  s.items.sum fun i =>
    if i.orderId = orderId ∧ i.sellableItemId = sellableItemId then i.quantity else 0

def CheckoutRef.couponUsable (c : CheckoutRef) (s : Db) : Prop :=
  ∀ couponId ∈ c.couponId, ∃ k ∈ s.coupons.get? couponId, usable c.couponUsedCount k

instance (c : CheckoutRef) (s : Db) : Decidable (c.couponUsable s) :=
  inferInstanceAs (Decidable (∀ couponId ∈ c.couponId, _))

/-- The condition: a checkout, and the payment of an order that has expired, commit only where the
quantities still fit. -/
def purchaseRoom (x : Site) (s : Db) : Prop :=
  newOrderIds x s ∧ match x with
  | .createMultiStoreOrder c => c.couponUsable s → ∀ line ∈ c.lines,
      ∀ psi ∈ s.sellableItems.get? line.1, ∀ l ∈ psi.maximumPerCustomer,
        purchasedQuantity s c.customer line.1 + line.2 ≤ l
  | .orderPayment _ orderId status version => ∀ o ∈ s.orders.get? orderId,
      orderCas orderId status version o = true → o.status = .expired → ∀ customer ∈ o.customer,
        ∀ psi ∈ s.sellableItems.rows, ∀ l ∈ psi.maximumPerCustomer,
          purchasedQuantity s customer psi.id + orderQuantity s orderId psi.id ≤ l
  | _ => True

instance (x : Site) (s : Db) : Decidable (purchaseRoom x s) := by
  casesm Site <;> dsimp only [purchaseRoom] <;> infer_instance

/-! ## Steps that buy nothing -/

/-- Orders are rewritten in place, and none counts as a purchase that did not before. -/
def OrdersShrink (s t : Db) : Prop :=
  ∃ g, t.orders.rows = s.orders.rows.map g ∧ ∀ o, OrderMove o (g o) ∧
    ((g o).status.countsAsPurchase = true → o.status.countsAsPurchase = true)

theorem OrdersShrink.refl (s : Db) : OrdersShrink s s :=
  ⟨id, (map_id _).symm, fun _ => ⟨⟨rfl, rfl, rfl, rfl⟩, id⟩⟩

theorem OrdersShrink.trans (h : OrdersShrink s t) (h' : OrdersShrink t u) : OrdersShrink s u := by
  obtain ⟨g, hg, hm⟩ := h
  obtain ⟨g', hg', hm'⟩ := h'
  refine ⟨g' ∘ g, by rw [hg', hg, map_map], fun o => ⟨?_, fun hc => ?_⟩⟩
  · obtain ⟨⟨h1, h2, h3, h4⟩, -⟩ := hm o
    obtain ⟨⟨h1', h2', h3', h4'⟩, -⟩ := hm' (g o)
    exact ⟨h1'.trans h1, h2'.trans h2, h3'.trans h3, h4'.trans h4⟩
  · exact (hm o).2 ((hm' (g o)).2 hc)

theorem keeps_ordersShrink (h : Keeps Db.orders st) : Within OrdersShrink st := by
  intro c s n s' hs
  refine ⟨id, ?_, fun _ => ⟨⟨rfl, rfl, rfl, rfl⟩, id⟩⟩
  rw [h c s n s' hs, map_id]

theorem updateOrders_ordersShrink {p : Db → ShopOrder → Bool} {f : Db → ShopOrder → ShopOrder}
    (hf : ∀ s o, OrderMove o (f s o))
    (hs : ∀ s o, p s o = true → (f s o).status.countsAsPurchase = true →
      o.status.countsAsPurchase = true) : Within OrdersShrink (updateOrders p f) := by
  intro c s n s' h
  refine ⟨_, (updateOrders_rows (fun s o => (hf s o).id) h).2, fun o => ?_⟩
  split
  · next hp => exact ⟨hf s o, hs s o hp⟩
  · exact ⟨⟨rfl, rfl, rfl, rfl⟩, id⟩

theorem updateAttempts_ordersShrink {p : Db → PaymentAttempt → Bool}
    {f : Db → PaymentAttempt → PaymentAttempt} : Within OrdersShrink (updateAttempts p f) := by
  refine updateEach_within .refl (fun _ _ _ => .trans) (fun _ _ _ => forall_mem_nil _)
    (fun _ _ => keeps_ordersShrink (update_off rfl)) fun _ _ _ => each_if fun _ => each_two ?_ ?_
  · exact keeps_ordersShrink (updateHolds_keeps (by constructor <;> exact fun _ _ => rfl))
  · exact updateOrders_ordersShrink (fun _ _ => ⟨rfl, rfl, rfl, rfl⟩) fun _ _ _ hc => by cases hc

theorem ShopStmt.ordersShrink (h : ShopStmt False False money st) : Within OrdersShrink st := by
  cases h with
  | orders p f hf hv hs =>
    exact updateOrders_ordersShrink hf fun s o hp hc => ((hs s o hp).2 hc).resolve_right id
  | quiet st h =>
    exact h.within (fun _ => keeps_ordersShrink)
      (fun _ h => keeps_ordersShrink (h.keeps (by constructor; constructor; all_goals exact fun _ _ => rfl)))
      (fun _ h =>
        h.within (fun _ => keeps_ordersShrink) (fun _ _ => updateAttempts_ordersShrink) fun _ _ => rfl)
      False.elim False.elim (fun _ _ _ => keeps_ordersShrink (insert_off rfl)) False.elim
      (fun _ _ => rfl) (fun _ _ => rfl) fun _ _ => rfl

theorem ShopStmt.keeps_sellable {ordering : Prop} (h : ShopStmt paying ordering money st) :
    Keeps Db.sellableItems st := by
  refine h.keeps ?_
  constructor
  · constructor
    · constructor <;> exact fun _ _ => rfl
    all_goals exact fun _ _ => rfl
  all_goals exact fun _ _ => rfl

theorem ShopStmt.keeps_items (h : ShopStmt paying False money st) : Keeps Db.items st := by
  cases h with
  | orders p f hf hv hs => exact updateOrders_keeps (by constructor <;> exact fun _ _ => rfl) fun _ _ => rfl
  | quiet st h =>
    cases h with
    | plain st h => exact h.keeps (by constructor; constructor; all_goals exact fun _ _ => rfl)
    | attempts st h =>
      exact h.within (fun _ => id)
        (fun _ _ => updateAttempts_keeps (by constructor <;> exact fun _ _ => rfl) (fun _ _ => rfl) fun _ _ => rfl) fun _ _ => rfl
    | events c g hg => exact insert_off rfl
    | paymentEvent h g => exact insertRequired_off rfl
    | coupons p f => exact update_off rfl
    | redemptions p f => exact update_off rfl
    | orderRow h | newOrder h | newOrderOn h | items h | newRedemption h => exact h.elim

/-! ## What a step does to the quantities -/

theorem OrderMove.owns {o' : ShopOrder} (h : OrderMove o o') (customer : Customer) :
    customer.owns o' = customer.owns o := by
  unfold Customer.owns
  rw [h.userId, h.email]

theorem OrdersShrink.purchased_le (h : OrdersShrink s t) (hitems : t.items = s.items) (customer : Customer)
    (sellableItemId : Id) :
    purchasedQuantity t customer sellableItemId ≤ purchasedQuantity s customer sellableItemId := by
  obtain ⟨g, hg, hm⟩ := h
  unfold purchasedQuantity
  rw [hitems]
  refine Table.sum_le fun i _ => ?_
  by_cases hi : i.sellableItemId = sellableItemId ∧
      t.orderIs i.orderId (fun o => customer.owns o && o.status.countsAsPurchase) = true
  · obtain ⟨o', ho', hp⟩ := orderIs_iff.mp hi.2
    rw [Table.get?_map hg fun r => (hm r).1.id, Option.map_eq_some_iff] at ho'
    obtain ⟨o, ho, rfl⟩ := ho'
    rw [and_eq_true, (hm o).1.owns] at hp
    have hs : s.orderIs i.orderId (fun o => customer.owns o && o.status.countsAsPurchase) = true := by
      refine orderIs_iff.mpr ⟨o, ho, ?_⟩
      rw [and_eq_true]
      exact ⟨hp.1, (hm o).2 hp.2⟩
    rw [if_pos hi, if_pos ⟨hi.1, hs⟩]
  · rw [if_neg hi]
    exact Nat.zero_le _

theorem OrdersShrink.withinLimits (h : OrdersShrink s t) (hitems : t.items = s.items)
    (hsell : t.sellableItems = s.sellableItems) (hl : WithinPurchaseLimits s) : WithinPurchaseLimits t := by
  intro psi hpsi l hmax customer
  rw [hsell] at hpsi
  exact Nat.le_trans (h.purchased_le hitems customer psi.id) (hl psi hpsi l hmax customer)

theorem PaymentUse.purchased_le {order : ShopOrder} {coupon : Option Id} {now : Time}
    (h : PaymentUse order coupon now t u) (hitems : u.items = t.items)
    (hstatus : order.status = .pendingPayment ∨ order.status = .expired)
    (ho : t.orders.get? order.id = some o) (hcas : orderCas order.id order.status order.version o = true)
    (customer : Customer) (sellableItemId : Id) :
    purchasedQuantity u customer sellableItemId ≤ purchasedQuantity t customer sellableItemId +
      if o.status = .expired ∧ customer.owns o = true then orderQuantity t order.id sellableItemId
      else 0 := by
  -- an item that counts afterwards did so before, or is of the order itself
  have hbefore : ∀ i : ShopOrderItem,
      u.orderIs i.orderId (fun o => customer.owns o && o.status.countsAsPurchase) = true →
      t.orderIs i.orderId (fun o => customer.owns o && o.status.countsAsPurchase) = true ∨
        (i.orderId = order.id ∧ o.status = .expired ∧ customer.owns o = true) := by
    intro i hi
    obtain ⟨o', ho', hp⟩ := orderIs_iff.mp hi
    rw [Table.get?_map h.orders fun r => by split <;> rfl, Option.map_eq_some_iff] at ho'
    obtain ⟨x, hx, rfl⟩ := ho'
    rw [and_eq_true] at hp
    by_cases hxc : orderCas order.id order.status order.version x = true
    · rw [if_pos hxc] at hp
      have hio : i.orderId = order.id := (Table.get?_key hx).symm.trans (orderCas_id hxc)
      have hxo : x = o := by
        rw [hio, ho] at hx
        exact (Option.some.inj hx).symm
      subst hxo
      have howns : customer.owns x = true := hp.1
      have hst := orderCas_status hxc
      rcases hstatus with hpending | hexp
      · refine Or.inl (orderIs_iff.mpr ⟨x, hx, ?_⟩)
        rw [howns, hst, hpending]
        rfl
      · exact Or.inr ⟨hio, hst.trans hexp, howns⟩
    · rw [if_neg hxc] at hp
      exact Or.inl (orderIs_iff.mpr ⟨x, hx, by rw [and_eq_true]; exact hp⟩)
  unfold purchasedQuantity
  rw [hitems]
  by_cases hlate : o.status = .expired ∧ customer.owns o = true
  · rw [if_pos hlate]
    unfold orderQuantity
    rw [← Table.sum_add]
    refine Table.sum_le fun i _ => ?_
    by_cases hi : i.sellableItemId = sellableItemId ∧
        u.orderIs i.orderId (fun o => customer.owns o && o.status.countsAsPurchase) = true
    · rw [if_pos hi]
      rcases hbefore i hi.2 with hold | hnew
      · rw [if_pos ⟨hi.1, hold⟩]
        exact Nat.le_add_right _ _
      · have hown : (if i.orderId = order.id ∧ i.sellableItemId = sellableItemId then i.quantity
            else 0) = i.quantity := if_pos ⟨hnew.1, hi.1⟩
        rw [hown]
        exact Nat.le_add_left _ _
    · rw [if_neg hi]
      exact Nat.zero_le _
  · rw [if_neg hlate, Nat.add_zero]
    refine Table.sum_le fun i _ => ?_
    by_cases hi : i.sellableItemId = sellableItemId ∧
        u.orderIs i.orderId (fun o => customer.owns o && o.status.countsAsPurchase) = true
    · have hold := (hbefore i hi.2).resolve_right fun hnew => hlate hnew.2
      rw [if_pos hi, if_pos ⟨hi.1, hold⟩]
    · rw [if_neg hi]
      exact Nat.zero_le _

/-! ## Checkout -/

def ItemsOwned (s : Db) : Prop := ∀ i ∈ s.items.rows, ∃ o ∈ s.orders.rows, o.id = i.orderId

instance (s : Db) : Decidable (ItemsOwned s) := by
  unfold ItemsOwned
  infer_instance

theorem lines_sum {lines : List ShopOrderItem} (h : (lines.map (·.sellableItemId)).Nodup) (k : Id) :
    (lines.map fun l => if l.sellableItemId = k then l.quantity else 0).sum = 0 ∨ ∃ l ∈ lines, l.sellableItemId = k ∧
        (lines.map fun l => if l.sellableItemId = k then l.quantity else 0).sum = l.quantity := by
  induction lines with
  | nil => exact Or.inl rfl
  | cons l lines ih =>
    rw [map_cons, nodup_cons] at h
    simp only [map_cons, sum_cons]
    rcases ih h.2 with hzero | ⟨l', hl', hk, hsum⟩
    · rw [hzero]
      by_cases hl : l.sellableItemId = k
      · exact Or.inr ⟨l, mem_cons_self, hl, by rw [if_pos hl, Nat.add_zero]⟩
      · exact Or.inl (by rw [if_neg hl])
    · have hl : l.sellableItemId ≠ k := fun hl =>
        h.1 (mem_map.mpr ⟨l', hl', hk.trans hl.symm⟩)
      refine Or.inr ⟨l', mem_cons_of_mem _ hl', hk, ?_⟩
      rw [if_neg hl, Nat.zero_add, hsum]

theorem Checkout.order_customer (c : Checkout) : c.order.customer = c.customer := rfl

theorem NewOrder.purchased (h : NewOrder c coupon t u) (hown : ItemsOwned t) (customer : Customer) (k : Id) :
    purchasedQuantity u customer k = purchasedQuantity t customer k +
      if c.customer = some customer then (c.lines.map fun l => if l.sellableItemId = k then l.quantity else 0).sum
      else 0 := by
  obtain ⟨o, hmove, hstatus, -, horders⟩ := h.order
  unfold purchasedQuantity
  rw [Table.sum_append h.items]
  congr 1
  · -- the items of before are of orders of before
    refine congrArg sum (map_congr_left fun i hi => ?_)
    obtain ⟨x, hx, hid⟩ := hown i hi
    have hget : t.orders.get? i.orderId = some x := Table.get?_eq_some_iff.mpr ⟨hx, hid⟩
    have hget' : u.orders.get? i.orderId = some x := Table.get?_append horders hget
    refine if_congr (and_congr_right fun _ => ?_) rfl rfl
    simp only [orderIs_iff, hget, hget']
  · have hget : u.orders.get? c.orderId = some o := by
      refine Table.get?_eq_some_iff.mpr ⟨?_, hmove.id⟩
      rw [horders]
      exact mem_append_right _ (mem_singleton_self _)
    have howns : customer.owns o = true ↔ c.customer = some customer := by
      rw [hmove.owns, owns_iff, c.order_customer]
    unfold Checkout.items
    rw [map_map]
    by_cases hc : c.customer = some customer
    · rw [if_pos hc]
      refine congrArg sum (map_congr_left fun l _ => ?_)
      have hcounts : u.orderIs c.orderId (fun o => customer.owns o && o.status.countsAsPurchase) =
          true := orderIs_iff.mpr ⟨o, hget, by rw [howns.mpr hc, hstatus]; rfl⟩
      exact if_congr (and_iff_left hcounts) rfl rfl
    · rw [if_neg hc]
      refine sum_eq_zero fun n hn => ?_
      obtain ⟨l, -, rfl⟩ := mem_map.mp hn
      refine if_neg fun hp => hc (howns.mp ?_)
      obtain ⟨x, hx, hpx⟩ := orderIs_iff.mp hp.2
      have hxo : o = x := by
        have hx' : u.orders.get? c.orderId = some x := hx
        rw [hget] at hx'
        exact Option.some.inj hx'
      rw [hxo]
      exact (and_eq_true _ _ ▸ hpx).1

theorem NewOrder.withinPurchaseLimits (h : NewOrder c coupon t u) (hown : ItemsOwned t)
    (hsell : u.sellableItems = t.sellableItems) (hcustomer : c.customer = some customer)
    (hl : WithinPurchaseLimits t) (hroom : ∀ line ∈ c.lines, ∀ psi ∈ t.sellableItems.get? line.sellableItemId,
      ∀ l ∈ psi.maximumPerCustomer,
        purchasedQuantity t customer line.sellableItemId + line.quantity ≤ l) : WithinPurchaseLimits u := by
  intro psi hpsi l hmax buyer
  rw [hsell] at hpsi
  have hle := hl psi hpsi l hmax buyer
  rw [h.purchased hown buyer psi.id]
  by_cases hb : c.customer = some buyer
  · rw [if_pos hb]
    have hbuyer : buyer = customer := Option.some.inj (hb.symm.trans hcustomer)
    rcases lines_sum c.distinct psi.id with hzero | ⟨line, hline, hk, hsum⟩
    · omega
    · have hfit := hroom line hline psi (hk ▸ Table.mem_get? hpsi) l hmax
      rw [hk] at hfit
      rw [hsum, hbuyer]
      exact hfit
  · rw [if_neg hb]
    exact hle

/-! ## The system -/

structure PurchaseInv (s : Db) : Prop where
  owned : ItemsOwned s
  events : PaidHaveEvent s
  limits : WithinPurchaseLimits s

def purchaseSpec : Spec Db Site Empty :=
  Spec.ofRel PurchaseInv purchaseRoom (fun _ _ => True) (fun _ _ => True) (fun _ => trivial)
    (fun _ => trivial) fun _ _ _ _ _ => trivial

theorem ItemsOwned.step (h : ItemsOwned s) (ho : OrdersKept s t) (hitems : t.items = s.items) : ItemsOwned t := by
  intro i hi
  rw [hitems] at hi
  obtain ⟨o, hmem, hid⟩ := h i hi
  obtain ⟨o', ho', hm⟩ := ho _ o (Table.mem_get? hmem)
  exact ⟨o', Table.get?_mem ho', hm.id.trans hid⟩

theorem NewOrder.itemsOwned (h : NewOrder c coupon t u) (hown : ItemsOwned t) : ItemsOwned u := by
  obtain ⟨o, hmove, -, -, horders⟩ := h.order
  intro i hi
  rw [h.items] at hi
  rw [horders]
  rcases mem_append.mp hi with hold | hnew
  · obtain ⟨x, hx, hid⟩ := hown i hold
    exact ⟨x, mem_append_left _ hx, hid⟩
  · obtain ⟨l, -, rfl⟩ := mem_map.mp hnew
    exact ⟨o, mem_append_right _ (mem_singleton_self _), hmove.id⟩

theorem purchase_admits : AdmitsShop purchaseSpec (fun _ => True) := by
  intro x sts t ns u h hi hc hb
  obtain ⟨hnew, hroom⟩ := hc
  have hevents : PaidHaveEvent u := h.paidHaveEvent hi.events hb
  have hkept : OrdersKept t u := h.ordersKept hb
  have hsell : u.sellableItems = t.sellableItems :=
    batch_keeps (fun st hst => (h.stmts st hst).keeps_sellable) hb
  refine Spec.admits_ofRel ?_ trivial fun _ => trivial
  by_cases hck : x.isCheckout
  · cases h with
    | checkout c customer capacity coupon hcustomer hcoupon _ =>
      have hwritten := newOrder hnew hb
      refine ⟨hwritten.itemsOwned hi.owned, hevents, ?_⟩
      refine hwritten.withinPurchaseLimits hi.owned hsell hcustomer hi.limits ?_
      have husable : (c.ref customer coupon).couponUsable t := by
        intro couponId hk
        obtain ⟨k, hk', rfl⟩ := Option.map_eq_some_iff.mp hk
        have hkk : (c.ref customer coupon).couponUsedCount = k.1.usedCount := by
          simp [Checkout.ref, hk']
        obtain ⟨k0, hk0, huse⟩ := (hwritten.withCoupon k hk').1
        exact ⟨k0, hk0, hkk ▸ huse⟩
      exact fun line hline => hroom husable _ (mem_map_of_mem hline)
    | _ => exact hck.elim
  have hitems : u.items = t.items := by
    refine batch_keeps (fun st hst => ?_) hb
    have hst' := h.stmts st hst
    rw [show x.isCheckout = False from eq_false hck] at hst'
    exact hst'.keeps_items
  by_cases hpay : x.isPayment
  · cases h with
    | orderPayment channelId event context order coupon fulfillment e hcontext horder hseen hful =>
      obtain ⟨t1, t2, t3, t4, hsteps⟩ := orderPaymentBatch_ok hb
      have huse := hsteps.use hi.events hful
      obtain ⟨o, ho, hcas⟩ := huse.hit
      have hstatus : order.status = .pendingPayment ∨ order.status = .expired :=
        hseen.imp And.left And.left
      refine ⟨hi.owned.step hkept hitems, hevents, fun psi hpsi l hmax customer => ?_⟩
      rw [hsell] at hpsi
      refine Nat.le_trans (huse.purchased_le hitems hstatus ho hcas customer psi.id) ?_
      split
      · next hlate =>
        exact hroom o ho hcas hlate.1 customer (owns_iff.mp hlate.2) psi hpsi l hmax
      · exact hi.limits psi hpsi l hmax customer
    | _ => exact hpay.elim
  have hshrink : OrdersShrink t u := by
    refine batch_within .refl (fun _ _ _ => .trans) (fun st hst => ?_) hb
    have hst' := h.stmts st hst
    rw [show x.isPayment = False from eq_false hpay, show x.isCheckout = False from eq_false hck] at hst'
    exact hst'.ordersShrink
  exact ⟨hi.owned.step hkept hitems, hevents, hshrink.withinLimits hitems hsell hi.limits⟩

/-- In every run that buys only where the quantities fit, no customer exceeds the limit of a plan. -/
theorem purchase_limits_kept {s : Db} (h0 : PurchaseInv s) {w : World Db Site DomainError Unit}
    (hrun : Runs ShopCall.code purchaseRoom ⟨s, []⟩ w) : WithinPurchaseLimits w.db :=
  (Runs.sound purchaseSpec (fun c s _ => (c.bare purchase_admits (by cases c <;> trivial) s).ok) hrun
    (good_idle _ h0)).1.1.limits

/-! ## Two runs -/

def twoEachDb : Db where
  sellableItems := .ok [{ id := 7, maximumPerCustomer := some 2 }]
  channels := .ok [{ id := 1, provider := .stripe }]

theorem twoEachDb_inv : PurchaseInv twoEachDb where
  owned := by decide
  events := by decide
  limits := fun psi _ l _ customer => by
    have hnone : purchasedQuantity twoEachDb customer psi.id = 0 := rfl
    omega

def planCheckout (orderId : Id) (quantity : Nat) (now : Time) : Checkout :=
  { couponCheckout 1 orderId now with
    couponId := none
    lines := [{ id := orderId, orderId := orderId, sellableItemId := 7, deliveryComponentId := 7
                deliveryComponentType := .automation, quantity := quantity }]
    nonempty := by simp
    distinct := by simp }

/-- An order expires, the customer places another one, and the first is paid late. -/
def bothOrdersRun : World Db Site DomainError Unit :=
  World.exec ShopCall.code purchaseRoom ⟨twoEachDb, []⟩
    (oneByOne [.checkout (planCheckout 1 1 0), startedPayment 1 1, .expire 10 10,
      .checkout (planCheckout 2 1 11), paymentArrives 1 12] 10)

/-- Two checkouts read what the customer has bought before either commits. -/
def sideBySideRun : World Db Site DomainError Unit :=
  World.exec ShopCall.code newOrderIds ⟨twoEachDb, []⟩
    ([Move.start (.checkout (planCheckout 1 2 0)), Move.start (.checkout (planCheckout 2 2 0))] ++
      List.replicate 2 (Move.run 0) ++ List.replicate 3 (Move.run 1) ++ [Move.run 0])

theorem purchase_limits_kept_bothOrdersRun :
    purchasedQuantity bothOrdersRun.db (.user 1) 7 = 2 ∧ WithinPurchaseLimits bothOrdersRun.db :=
  ⟨by set_option maxRecDepth 50000 in decide,
    purchase_limits_kept twoEachDb_inv (World.exec_runs ShopCall.code purchaseRoom _ _)⟩

/-- A customer has four of a plan that allows two. -/
theorem not_purchase_limits_kept : ¬∀ s, PurchaseInv s → ∀ w : World Db Site DomainError Unit,
      Runs ShopCall.code newOrderIds ⟨s, []⟩ w → WithinPurchaseLimits w.db := by
  intro h
  have hkept := h twoEachDb twoEachDb_inv sideBySideRun (World.exec_runs ShopCall.code newOrderIds _ _)
  have hplan : ∃ psi ∈ sideBySideRun.db.sellableItems.rows,
      psi.id = 7 ∧ psi.maximumPerCustomer = some 2 := by decide
  have hfour : purchasedQuantity sideBySideRun.db (.user 1) 7 = 4 := by decide
  obtain ⟨psi, hpsi, hid, hlimit⟩ := hplan
  have hle := hkept psi hpsi 2 hlimit (.user 1)
  rw [hid, hfour] at hle
  omega

end Gmshop
