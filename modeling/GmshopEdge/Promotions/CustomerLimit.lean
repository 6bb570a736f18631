import GmshopEdge.Promotions.CouponUse

/-!
# The limit of a coupon for one customer

Checkout reads how often a customer uses the coupon before its batch, and the batch itself only compares
the coupon's `used_count`; a late payment reads the uses of the other redemptions before its batch, and
the batch compares nothing of the customer. So the limit holds as long as neither commits where the
customer has used it up (`customerRoom`), and it is broken by a checkout between the read of a late
payment and its batch.
-/

namespace Gmshop

open List Sql Stmt Prog Table

/-! ## The property -/

/-- Whose redemption it is: the account's, else the guest's under the email. -/
def CouponRedemption.customer (cr : CouponRedemption) : Customer :=
  match cr.userId with
  | some id => .user id
  | none => .guest cr.normalizedEmail

def customerUses (s : Db) (couponId : Id) (customer : Customer) : Nat :=
  s.redemptions.count fun cr =>
    cr.couponId == couponId && cr.customer == customer && cr.status.inUse

/-- No customer has more uses of a coupon than its limit for one customer. -/
def WithinCustomerLimits (s : Db) : Prop :=
  ∀ k ∈ s.coupons.rows, ∀ l ∈ k.usageLimitPerCustomer, ∀ customer, customerUses s k.id customer ≤ l

def CheckoutRef.redeemer (c : CheckoutRef) : Customer :=
  match c.customer with
  | .user id => .user id
  | .guest _ => .guest c.couponEmail

/-- The condition: a checkout whose coupon swap hits, and a late payment that takes a redemption back,
commit only where the customer still has a use left. -/
def customerRoom (x : Site) (s : Db) : Prop :=
  newOrderIds x s ∧ match x with
  | .createMultiStoreOrder c => ∀ couponId ∈ c.couponId, ∀ k ∈ s.coupons.get? couponId,
      usable c.couponUsedCount k → ∀ l ∈ k.usageLimitPerCustomer, customerUses s couponId c.redeemer < l
  | .orderPayment _ orderId status version =>
      s.orderIs orderId (fun o => o.status == status && o.version == version) = true →
        ∀ cr ∈ s.redemptions.rows, cr.orderId = orderId → cr.status = .released →
          ∀ k ∈ s.coupons.get? cr.couponId, ∀ l ∈ k.usageLimitPerCustomer, customerUses s cr.couponId cr.customer < l
  | _ => True

instance (x : Site) (s : Db) : Decidable (customerRoom x s) := by
  casesm Site <;> dsimp only [customerRoom] <;> infer_instance

/-! ## One step -/

theorem RedemptionMove.customer {r r' : CouponRedemption} (h : RedemptionMove r r') : r'.customer = r.customer := by
  unfold CouponRedemption.customer
  rw [h.userId, h.email]

theorem CouponQuiet.withinLimits {x : Option Id} {s t : Db} (h : CouponQuiet x s t)
    (hl : WithinCustomerLimits s) : WithinCustomerLimits t := by
  obtain ⟨g, hg, hgm⟩ := h.coupons
  obtain ⟨f, hf, hfm⟩ := h.redemptions
  intro k' hk' l hlk customer
  rw [hg] at hk'
  obtain ⟨k, hk, rfl⟩ := mem_map.mp hk'
  rw [(hgm k).usageLimitPerCustomer] at hlk
  rw [(hgm k).id]
  refine Nat.le_trans (count_le_of_map hf fun r _ hr => ?_) (hl k hk l hlk customer)
  simp only [Bool.and_eq_true, beq_iff_eq] at hr ⊢
  rw [(hfm r).couponId, (hfm r).customer] at hr
  exact ⟨hr.1, (hfm r).inUse hr.2⟩

theorem PaymentUse.withinLimits {order : ShopOrder} {coupon : Option Id} {now : Time} {t u : Db}
    (h : PaymentUse order coupon now t u) (hl : WithinCustomerLimits t)
    (hroom : ∀ cr ∈ t.redemptions.rows, cr.orderId = order.id → cr.status = .released →
      ∀ k ∈ t.coupons.get? cr.couponId, ∀ l ∈ k.usageLimitPerCustomer,
        customerUses t cr.couponId cr.customer < l) : WithinCustomerLimits u := by
  have hcoupons : ∀ k' ∈ u.coupons.rows, ∃ k ∈ t.coupons.rows,
      k.id = k'.id ∧ k.usageLimitPerCustomer = k'.usageLimitPerCustomer := by
    intro k' hk'
    cases coupon with
    | none => exact ⟨k', by rw [h.without rfl] at hk'; exact hk', rfl, rfl⟩
    | some c =>
      obtain ⟨-, -, -, hrows⟩ := h.withCoupon c rfl
      rw [hrows] at hk'
      obtain ⟨k, hk, rfl⟩ := mem_map.mp hk'
      refine ⟨k, hk, ?_⟩
      split <;> exact ⟨rfl, rfl⟩
  intro k' hk' l hlk customer
  obtain ⟨k, hk, hid, hlim⟩ := hcoupons k' hk'
  rw [← hlim] at hlk
  rw [← hid]
  have hcustomer : ∀ r, (consume order.id r).customer = r.customer := by
    intro r
    obtain ⟨-, -, -, hu, he⟩ := consume_id order.id r
    unfold CouponRedemption.customer
    rw [hu, he]
  by_cases hback : ∃ r ∈ t.redemptions.rows, r.orderId = order.id ∧ r.status = .released ∧
      r.couponId = k.id ∧ r.customer = customer
  · obtain ⟨r, hr, hro, hrs, hrk, hrc⟩ := hback
    have hmoved := count_map_single
      (p := fun cr => cr.couponId == k.id && cr.customer == customer && cr.status.inUse)
      h.redemptions hr fun y hy hne => by
        rw [consume_other fun hyo => hne (congrArg CouponRedemption.id
          (redemption_unique hy hr (hyo.trans hro.symm)))]
    have hlt : customerUses t k.id customer < l := by
      rw [← hrk, ← hrc]
      exact hroom r hr hro hrs k (get?_eq_some_iff.mpr ⟨hk, hrk.symm⟩) l hlk
    have hrise : customerUses u k.id customer ≤ customerUses t k.id customer + 1 := by
      unfold customerUses
      split at hmoved <;> split at hmoved <;> omega
    omega
  · refine Nat.le_trans (count_le_of_map h.redemptions fun r hr hp => ?_) (hl k hk l hlk customer)
    simp only [Bool.and_eq_true, beq_iff_eq] at hp ⊢
    rw [(consume_id order.id r).2.1, hcustomer r] at hp
    refine ⟨hp.1, ?_⟩
    by_cases hro : r.orderId = order.id
    · rw [← consume_inUse fun hrs => hback ⟨r, hr, hro, hrs, hp.1.1, hp.1.2⟩]
      exact hp.2
    · rw [consume_other hro] at hp
      exact hp.2

theorem NewOrder.withinLimits {c : Checkout} {coupon : Option (Coupon × Nat)} {customer : Customer}
    {t u : Db} (h : NewOrder c coupon t u) (hcustomer : c.customer = some customer)
    (hl : WithinCustomerLimits t)
    (hroom : ∀ k ∈ coupon, ∀ k0 ∈ t.coupons.get? k.1.id, usable k.1.usedCount k0 →
      ∀ l ∈ k0.usageLimitPerCustomer, customerUses t k.1.id (c.ref customer coupon).redeemer < l) :
    WithinCustomerLimits u := by
  intro k' hk' l hlk buyer
  cases coupon with
  | none =>
    obtain ⟨hk, hr⟩ := h.without rfl
    rw [hk] at hk'
    unfold customerUses
    rw [hr]
    exact hl k' hk' l hlk buyer
  | some k =>
    obtain ⟨⟨k0, hk0, huse⟩, hrows, hred⟩ := h.withCoupon k rfl
    have hredeemer : (c.redemption k).customer = (c.ref customer (some k)).redeemer := by
      unfold Checkout.customer at hcustomer
      cases hu : c.userId with
      | some id =>
        rw [hu] at hcustomer
        cases hcustomer
        simp [CouponRedemption.customer, Checkout.redemption, hu, Checkout.ref, CheckoutRef.redeemer]
      | none =>
        rw [hu] at hcustomer
        cases he : c.email with
        | none =>
          rw [he] at hcustomer
          cases hcustomer
        | some email =>
          rw [he] at hcustomer
          cases hcustomer
          simp [CouponRedemption.customer, Checkout.redemption, hu, Checkout.ref, CheckoutRef.redeemer]
    rw [hrows] at hk'
    obtain ⟨k1, hk1, rfl⟩ := mem_map.mp hk'
    have hid : (if k1.id = k.1.id then { k1 with usedCount := k1.usedCount + 1 } else k1).id = k1.id := by
      split <;> rfl
    have hlim : (if k1.id = k.1.id then { k1 with usedCount := k1.usedCount + 1 }
        else k1).usageLimitPerCustomer = k1.usageLimitPerCustomer := by
      split <;> rfl
    rw [hlim] at hlk
    rw [hid]
    have huses : customerUses u k1.id buyer = customerUses t k1.id buyer +
        if k.1.id = k1.id ∧ (c.redemption k).customer = buyer then 1 else 0 := by
      unfold customerUses
      rw [count_append hred, countP_singleton]
      exact congrArg _ (if_congr (by simp [Checkout.redemption, RedemptionStatus.inUse]) rfl rfl)
    have hle := hl k1 hk1 l hlk buyer
    rw [huses]
    split
    · next hnew =>
      have hkk : k1 = k0 := eq_of_key hk1 (get?_mem hk0) (hnew.1.symm.trans (get?_key hk0).symm)
      have hlt := hroom k rfl k0 hk0 huse l (hkk ▸ hlk)
      rw [← hredeemer, hnew.2, hnew.1] at hlt
      omega
    · omega

/-! ## The system -/

structure CustomerInv (s : Db) : Prop where
  coupons : CouponInv s
  limits : WithinCustomerLimits s

def customerSpec : Spec Db Site Empty :=
  Spec.ofRel CustomerInv customerRoom (fun _ _ => True) CouponRely (fun _ => trivial) .refl fun _ _ _ => .trans

theorem customer_admits : AdmitsShop customerSpec (· ≠ .expired) := by
  intro x sts t ns u h hi hc hb
  obtain ⟨hnew, hroom⟩ := hc
  obtain ⟨hinv, hrely⟩ := h.coupons (fun _ hs => CustomerInv.coupons hs) (fun _ _ hr => hr) hi.coupons hnew hb
  refine Spec.admits_ofRel ⟨hinv, ?_⟩ trivial fun _ => hrely
  by_cases hpay : x.isPayment
  · cases h with
    | orderPayment channelId event context order coupon fulfillment e hcontext horder hseen hful =>
      obtain ⟨t1, t2, t3, t4, hsteps⟩ := orderPaymentBatch_ok hb
      have huse := hsteps.use hi.coupons.events hful
      obtain ⟨o, ho, hcas⟩ := huse.hit
      refine huse.withinLimits hi.limits (hroom (orderIs_iff.mpr ⟨o, ho, ?_⟩))
      unfold orderCas at hcas
      rw [Bool.and_eq_true] at hcas
      exact hcas.2
    | _ => exact hpay.elim
  by_cases hexp : ∃ orderId version, x = .expireStoreOrder orderId version
  · obtain ⟨orderId, version, rfl⟩ := hexp
    cases h with
    | expire orderId version now =>
      exact (expire_coupons hi.coupons.books hb).2.withinLimits hi.limits
  by_cases hck : ∃ c, x = .createMultiStoreOrder c
  · obtain ⟨ref, rfl⟩ := hck
    cases h with
    | checkout c customer capacity coupon hcustomer _ _ =>
      refine (newOrder hnew hb).withinLimits hcustomer hi.limits fun k hk => ?_
      cases hk
      exact hroom _ rfl
  have hquiet : CouponQuiet none t u :=
    batch_within (.refl none) (fun _ _ _ => .trans) (h.quiet (fun c hc => hck ⟨c, hc⟩) hpay
      fun orderId version hx => hexp ⟨orderId, version, hx⟩) hb
  exact hquiet.withinLimits hi.limits

/-- In every run that claims uses only where the customer has one left, no customer exceeds the
limit. -/
theorem customer_limits_kept {s : Db} (h0 : CustomerInv s) {w : World Db Site DomainError Unit}
    (hrun : Runs (fun c : CouponCall => c.1.code) customerRoom ⟨s, []⟩ w) :
    WithinCustomerLimits w.db :=
  (Runs.sound customerSpec (fun c s _ => (ShopCall.bare customer_admits c.1 c.2 s).ok) hrun
    (good_idle _ h0)).1.1.limits

/-! ## Two runs -/

theorem oneUseDb_inv : CustomerInv oneUseDb where
  coupons := by decide
  limits := fun k _ l _ customer => by
    have hnone : customerUses oneUseDb k.id customer = 0 := rfl
    omega

/-- The customer's first order expires, and a second one uses the coupon. -/
def secondOrderRun : World Db Site DomainError Unit :=
  World.exec (fun c : CouponCall => c.1.code) customerRoom ⟨oneUseDb, []⟩
    (oneByOne [⟨.checkout (couponCheckout 1 1 0), trivial⟩, ⟨startedPayment 1 1, trivial⟩,
      ⟨.expire 10 10, trivial⟩, ⟨.checkout (couponCheckout 1 2 11), trivial⟩] 10)

/-- The same, but the second order is placed between the reads of a late payment of the first and its
batch. -/
def overtakenPaymentRun : World Db Site DomainError Unit :=
  World.exec (fun c : CouponCall => c.1.code) newOrderIds ⟨oneUseDb, []⟩
    (oneByOne [⟨.checkout (couponCheckout 1 1 0), trivial⟩, ⟨startedPayment 1 1, trivial⟩,
        ⟨.expire 10 10, trivial⟩] 10 ++
      Move.start ⟨paymentArrives 1 12, trivial⟩ :: List.replicate 6 (Move.run 3) ++
      Move.start ⟨.checkout (couponCheckout 1 2 11), trivial⟩ :: List.replicate 10 (Move.run 4) ++
      [Move.run 3])

theorem customer_limits_kept_secondOrderRun :
    customerUses secondOrderRun.db 5 (.user 1) = 1 ∧ WithinCustomerLimits secondOrderRun.db :=
  ⟨by set_option maxRecDepth 50000 in decide, customer_limits_kept oneUseDb_inv
    (World.exec_runs (fun c : CouponCall => c.1.code) customerRoom _ _)⟩

/-- One customer has two redemptions of a coupon that allows one. -/
theorem not_customer_limits_kept : ¬∀ s, CustomerInv s → ∀ w : World Db Site DomainError Unit,
      Runs (fun c : CouponCall => c.1.code) newOrderIds ⟨s, []⟩ w → WithinCustomerLimits w.db := by
  intro h
  have hkept := h oneUseDb oneUseDb_inv overtakenPaymentRun
    (World.exec_runs (fun c : CouponCall => c.1.code) newOrderIds _ _)
  have hcoupon : ∃ k ∈ overtakenPaymentRun.db.coupons.rows,
      k.id = 5 ∧ k.usageLimitPerCustomer = some 1 := by set_option maxRecDepth 50000 in decide
  have huses : customerUses overtakenPaymentRun.db 5 (.user 1) = 2 := by
    set_option maxRecDepth 50000 in decide
  obtain ⟨k, hk, hid, hlimit⟩ := hcoupon
  have hle := hkept k hk 1 hlimit (.user 1)
  rw [hid, huses] at hle
  omega

end Gmshop
