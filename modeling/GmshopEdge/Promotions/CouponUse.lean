import GmshopEdge.Orders.NewOrder
import GmshopEdge.Orders.PaidEvent
import GmshopEdge.Promotions.CouponBooks
import GmshopEdge.Lib.Checked

/-!
# How often a coupon is used

In every run of checkouts, payments, expiries and cancellations the counter of a coupon is the number of
its redemptions in use (`coupons_counted`). A late payment claims a use again from a read of before; it
is right because the order has not moved since, which its swap makes sure of.
-/

namespace Gmshop

open List Sql Stmt Prog Table Option

/-! ## What the others rely on -/

def Advanced (s t : Db) (orderId : Id) : Prop :=
  ∀ o, s.orders.get? orderId = some o → ∃ o', t.orders.get? orderId = some o' ∧ o.version < o'.version

/-- A redemption later on: one that was given back is claimed again only as its order moves on. -/
structure RedemptionLater (s t : Db) (r r' : CouponRedemption) : Prop where
  id : r'.id = r.id
  couponId : r'.couponId = r.couponId
  orderId : r'.orderId = r.orderId
  consumed : r.status = .consumed → r'.status = .consumed
  released : r.status = .released → r'.status = .released ∨ Advanced s t r.orderId

structure CouponRely (s t : Db) : Prop where
  orders : OrdersKept s t
  kept : ∀ r ∈ s.redemptions.rows, ∃ r' ∈ t.redemptions.rows, RedemptionLater s t r r'
  old : ∀ r' ∈ t.redemptions.rows,
    (∃ r ∈ s.redemptions.rows, r.id = r'.id) ∨ s.orders.get? r'.orderId = none

theorem CouponRely.refl (s : Db) : CouponRely s s where
  orders := .refl s
  kept r hr := ⟨r, hr, rfl, rfl, rfl, fun h => h, Or.inl⟩
  old r' hr' := Or.inl ⟨r', hr', rfl⟩

variable {s t t1 t2 t3 u : Db} {x : Option Id} {o : ShopOrder} {version : Nat} {orderId : Id}
  {fulfillment sts : List (Stmt Db)} {ns : List Nat} {now : Time} {τ : Type} {r : CouponRedemption}
  {c : Checkout} {coupon : Option (Coupon × Nat)} {S : Spec Db Site τ}

theorem CouponRely.trans (h : CouponRely s t) (h' : CouponRely t u) : CouponRely s u where
  orders := h.orders.trans h'.orders
  kept r hr := by
    obtain ⟨r', hr', hm⟩ := h.kept r hr
    obtain ⟨r'', hr'', hm'⟩ := h'.kept r' hr'
    refine ⟨r'', hr'', hm'.id.trans hm.id, hm'.couponId.trans hm.couponId,
      hm'.orderId.trans hm.orderId, fun hc => hm'.consumed (hm.consumed hc), fun hrel => ?_⟩
    rcases hm.released hrel with hrel' | hadv
    · refine (hm'.released hrel').imp_right fun hadv o ho => ?_
      obtain ⟨o', ho', hs⟩ := h.orders _ o ho
      obtain ⟨o'', ho'', hlt⟩ := hadv o' (by rw [hm.orderId]; exact ho')
      rw [hm.orderId] at ho''
      exact ⟨o'', ho'', Nat.lt_of_le_of_lt hs.version hlt⟩
    · refine Or.inr fun o ho => ?_
      obtain ⟨o', ho', hlt⟩ := hadv o ho
      obtain ⟨o'', ho'', hs⟩ := h'.orders _ o' ho'
      exact ⟨o'', ho'', Nat.lt_of_lt_of_le hlt hs.version⟩
  old r'' hr'' := by
    rcases h'.old r'' hr'' with ⟨r', hr', hid⟩ | hnone
    · obtain ⟨x, hx, hm⟩ := h'.kept r' hr'
      have hxr : x = r'' := eq_of_key hx hr'' (hm.id.trans hid)
      subst hxr
      rcases h.old r' hr' with ⟨r, hr, hrid⟩ | hnone
      · exact Or.inl ⟨r, hr, hrid.trans hid⟩
      · exact Or.inr (by rw [hm.orderId]; exact hnone)
    · refine Or.inr ?_
      cases hs : s.orders.get? r''.orderId with
      | none => rfl
      | some o =>
        obtain ⟨o', ho', -⟩ := h.orders _ o hs
        rw [ho'] at hnone
        cases hnone

theorem CouponQuiet.rely (h : CouponQuiet x s t) (ho : OrdersKept s t) : CouponRely s t := by
  obtain ⟨g, hg, hm⟩ := h.redemptions
  refine ⟨ho, fun r hr => ⟨g r, hg ▸ mem_map_of_mem hr, (hm r).id, (hm r).couponId,
    (hm r).orderId, (hm r).consumed, fun hrel => Or.inl ((hm r).released hrel)⟩, fun r' hr' => ?_⟩
  rw [hg] at hr'
  obtain ⟨r, hr, rfl⟩ := mem_map.mp hr'
  exact Or.inl ⟨r, hr, (hm r).id.symm⟩

theorem CouponRely.of_order (h : CouponRely s t) {r' : CouponRedemption} (hr' : r' ∈ t.redemptions.rows)
    (ho : s.orders.get? r'.orderId = some o) : ∃ r ∈ s.redemptions.rows, RedemptionLater s t r r' := by
  rcases h.old r' hr' with ⟨r, hr, hid⟩ | hnone
  · obtain ⟨x, hx, hm⟩ := h.kept r hr
    rw [eq_of_key hx hr' (hm.id.trans hid)] at hm
    exact ⟨r, hr, hm⟩
  · rw [ho] at hnone
    cases hnone

theorem OrdersKept.between {r : Db} (h : OrdersKept r s) (h' : OrdersKept s t) {id : Id} {a c : ShopOrder}
    (ha : r.orders.get? id = some a) (hc : t.orders.get? id = some c) (hv : c.version = a.version) :
    ∃ b, s.orders.get? id = some b ∧ b.status = a.status ∧ b.version = a.version := by
  obtain ⟨b, hb, hab⟩ := h id a ha
  have hbc := h'.status hb hc
  have h1 := hab.version
  have h2 := hbc.version
  have hbv : b.version = a.version := by omega
  exact ⟨b, hb, hab.same hbv, hbv⟩

/-! ## The payment of an order -/

def consume (orderId : Id) (r : CouponRedemption) : CouponRedemption :=
  if r.orderId == orderId && (r.status == .reserved || r.status == .released) then { r with status := .consumed }
  else r

/-- What the batch of a succeeded payment has done to orders, coupons and redemptions. -/
structure PaymentUse (order : ShopOrder) (coupon : Option Id) (now : Time) (t u : Db) : Prop where
  hit : ∃ o, t.orders.get? order.id = some o ∧ orderCas order.id order.status order.version o = true
  orders : u.orders.rows = t.orders.rows.map fun o =>
    if orderCas order.id order.status order.version o then paidOrder (order.version + 1) now o else o
  redemptions : u.redemptions.rows = t.redemptions.rows.map (consume order.id)
  without : coupon = none → u.coupons = t.coupons
  withCoupon : ∀ k ∈ coupon, ∃ k0, t.coupons.get? k = some k0 ∧
    (∀ l ∈ k0.usageLimit, k0.usedCount < l) ∧
    u.coupons.rows = t.coupons.rows.map fun k' =>
      if k'.id = k then { k' with usedCount := k'.usedCount + 1 } else k'

theorem afterPaymentEvent_ok {coupon : Option Id} {c : Nat} (hful : ∀ st ∈ fulfillment, Keeps orderCore st)
    (hb : batch (afterPaymentEvent orderId version coupon fulfillment) c s = .ok (ns, u)) :
    u.orders = s.orders ∧ u.redemptions.rows = s.redemptions.rows.map (consume orderId) ∧
      (coupon = none → u.coupons = s.coupons) ∧
      ∀ k ∈ coupon, ∃ k0, s.coupons.get? k = some k0 ∧ (∀ l ∈ k0.usageLimit, k0.usedCount < l) ∧
        u.coupons.rows = s.coupons.rows.map fun k' =>
          if k'.id = k then { k' with usedCount := k'.usedCount + 1 } else k' := by
  unfold afterPaymentEvent at hb
  obtain ⟨ns1, s2, ms1, hb, hend, -⟩ := batch_append_ok hb
  obtain ⟨ns2, s1, ms2, hclaim, hful', -⟩ := batch_append_ok hb
  have hs2 : orderCore s2 = orderCore s1 := batch_keeps hful hful'
  obtain ⟨n1, s3, n2, s4, h1, h2, rfl⟩ := batch_two_ok hend
  obtain ⟨-, tr, htr, rfl⟩ := update_ok h1
  have hu : orderCore s4 = orderCore (Db.redemptionsT.set s2 tr) :=
    Keeps.eq (insert_off rfl) h2
  simp only [orderCore, Prod.mk.injEq] at hu hs2
  obtain ⟨hu1, hu2, hu3⟩ := hu
  obtain ⟨hs1, hs2, hs3⟩ := hs2
  have hclaimed : s1.orders = s.orders ∧ s1.redemptions = s.redemptions ∧ (coupon = none → s1.coupons = s.coupons) ∧
      ∀ k ∈ coupon, ∃ k0, s.coupons.get? k = some k0 ∧ (∀ l ∈ k0.usageLimit, k0.usedCount < l) ∧
        s1.coupons.rows = s.coupons.rows.map fun k' =>
          if k'.id = k then { k' with usedCount := k'.usedCount + 1 } else k' := by
    cases coupon with
    | none =>
      simp only [Option.map_none, Option.getD_none, batch_nil, Except.ok.injEq, Prod.mk.injEq] at hclaim
      obtain ⟨-, rfl⟩ := hclaim
      exact ⟨rfl, rfl, fun _ => rfl, fun _ hk => by cases hk⟩
    | some k =>
      obtain ⟨m1, r1, m2, r2, c1, c2, rfl⟩ := batch_two_ok hclaim
      obtain ⟨hone, -, rfl⟩ := abortWhen_ok c2
      have hn : m1 ≠ 0 := by
        rintro rfl
        simp at hone
      have hp : (fun (s : Db) (c : Coupon) => c.id == k &&
          c.usageLimit.all (fun l => decide (c.usedCount < l)) && s.orderIs orderId (paidAt version)) =
          fun s c => KeyedRow.key c == k && (c.usageLimit.all (fun l => decide (c.usedCount < l)) &&
            s.orderIs orderId (paidAt version)) := by
        funext s c
        simp [KeyedRow.key, Bool.and_assoc]
      rw [hp] at c1
      obtain ⟨-, k0, tc, hk0, hlim, htc, rfl⟩ := update_key_hit c1 hn
      simp only [Bool.and_eq_true, Option.all_eq_true, decide_eq_true_eq] at hlim
      refine ⟨rfl, rfl, (fun h => by cases h), fun k' hk' => ?_⟩
      cases hk'
      exact ⟨k0, hk0, hlim.1, htc⟩
  obtain ⟨ho, hr, hnone, hsome⟩ := hclaimed
  refine ⟨?_, ?_, fun h => ?_, fun k hk => ?_⟩
  · rw [hu1, show (Db.redemptionsT.set s2 tr).orders = s2.orders from rfl, hs1, ho]
  · rw [hu3, show (Db.redemptionsT.set s2 tr).redemptions = tr from rfl, htr,
      show (Db.redemptionsT.get s2) = s2.redemptions from rfl, hs3, hr]
    rfl
  · rw [hu2, show (Db.redemptionsT.set s2 tr).coupons = s2.coupons from rfl, hs2, hnone h]
  · obtain ⟨k0, hk0, hlim, hrows⟩ := hsome k hk
    refine ⟨k0, hk0, hlim, ?_⟩
    rw [hu2, show (Db.redemptionsT.set s2 tr).coupons = s2.coupons from rfl, hs2, hrows]

theorem OrderPaymentSteps.use {channelId attemptId : Id} {event : PaymentEvent} {order : ShopOrder}
    {coupon : Option Id} {t4 : Db}
    (h : OrderPaymentSteps channelId attemptId event order coupon fulfillment now t t1 t2 t3 t4 u)
    (hi : PaidHaveEvent t) {e : PaymentEnv} (hful : Fulfills S order.id e fulfillment t) :
    PaymentUse order coupon now t u := by
  have h2 : orderCore t2 = orderCore t := h.before (fun _ _ => rfl) fun _ _ => rfl
  obtain ⟨c3, n3, hswap⟩ := h.swap
  obtain ⟨-, te, -, -, -, rfl⟩ := h.event
  obtain ⟨c4, ns4, hrest⟩ := h.rest
  have hrows := (updateOrders_rows (fun _ _ => by rfl) hswap).2
  have h3 : (t3.coupons, t3.redemptions) = (t2.coupons, t2.redemptions) :=
    updateOrders_alone (g := fun s => (s.coupons, s.redemptions))
      (by constructor <;> exact fun _ _ => rfl) (fun _ _ => rfl) _
      (fun _ _ => ⟨by simp [paidOrder], by simp [paidOrder]⟩) _ _ _ _ hswap
  have hfulkeep : ∀ st ∈ fulfillment, Keeps orderCore st :=
    fulfillment_keeps hful (by constructor <;> exact fun _ _ => rfl)
  obtain ⟨ho, hr, hnone, hsome⟩ := afterPaymentEvent_ok hfulkeep hrest
  simp only [orderCore, Prod.mk.injEq] at h2 h3
  obtain ⟨h2o, h2k, h2r⟩ := h2
  obtain ⟨h3k, h3r⟩ := h3
  have hk4 : (Db.eventsT.set t3 te).coupons = t.coupons := h3k.trans h2k
  have hr4 : (Db.eventsT.set t3 te).redemptions = t.redemptions := h3r.trans h2r
  refine ⟨h.hit hi, ?_, ?_, fun hc => ?_, fun k hk => ?_⟩
  · rw [ho, show (Db.eventsT.set t3 te).orders = t3.orders from rfl, hrows, h2o]
  · rw [hr, hr4]
  · rw [hnone hc, hk4]
  · obtain ⟨k0, hk0, hlim, hmap⟩ := hsome k hk
    rw [hk4] at hk0 hmap
    exact ⟨k0, hk0, hlim, hmap⟩

theorem consume_id (orderId : Id) (r : CouponRedemption) :
    (consume orderId r).id = r.id ∧ (consume orderId r).couponId = r.couponId ∧
      (consume orderId r).orderId = r.orderId ∧ (consume orderId r).userId = r.userId ∧
      (consume orderId r).normalizedEmail = r.normalizedEmail := by
  unfold consume
  split <;> exact ⟨rfl, rfl, rfl, rfl, rfl⟩

theorem consume_other (h : r.orderId ≠ orderId) : consume orderId r = r := by
  unfold consume
  rw [if_neg]
  rw [Bool.and_eq_true, beq_iff_eq]
  exact fun hr => h hr.1

theorem consume_inUse (h : r.status ≠ .released) : (consume orderId r).status.inUse = r.status.inUse := by
  unfold consume
  split
  · cases hs : r.status with
    | reserved => rfl
    | consumed => rfl
    | released => exact absurd hs h
  · rfl

section Payment

variable {order : ShopOrder} {coupon : Option Id} {now : Time} {t u : Db}

section

variable (h : PaymentUse order coupon now t u)
include h

theorem PaymentUse.counted (hb : CouponBooks none t)
    (hnone : coupon = none → ∀ r ∈ t.redemptions.rows, r.orderId = order.id → r.status ≠ .released)
    (hsome : ∀ k ∈ coupon, ∃ r ∈ t.redemptions.rows, r.orderId = order.id ∧ r.status = .released ∧
      r.couponId = k) : CouponsCounted u := by
  intro k' hk'
  cases coupon with
  | none =>
    rw [h.without rfl] at hk'
    obtain ⟨hcount, hlimit⟩ := hb.counted k' hk'
    refine ⟨hcount.trans (Eq.symm (count_eq_of_map h.redemptions fun r hr => ?_)), hlimit⟩
    obtain ⟨-, hk, -⟩ := consume_id order.id r
    rw [hk]
    by_cases hro : r.orderId = order.id
    · rw [consume_inUse (hnone rfl r hr hro)]
    · rw [consume_other hro]
  | some c =>
    obtain ⟨k0, hk0, hlt, hrows⟩ := h.withCoupon c rfl
    obtain ⟨r, hr, hro, hrs, hrc⟩ := hsome c rfl
    rw [hrows] at hk'
    obtain ⟨k, hk, rfl⟩ := mem_map.mp hk'
    obtain ⟨hcount, hlimit⟩ := hb.counted k hk
    by_cases hkc : k.id = c
    · have hkk0 : k = k0 := eq_of_key hk (get?_mem hk0) (hkc.trans (get?_key hk0).symm)
      have hrise : couponUses u k.id = couponUses t k.id + 1 := by
        have hmoved := count_map_single (p := fun cr => cr.couponId == k.id && cr.status.inUse)
          h.redemptions hr fun y hy hne => by
            rw [consume_other fun hyo => hne (congrArg CouponRedemption.id
              (redemption_unique hy hr (hyo.trans hro.symm)))]
        simpa [couponUses, consume, hro, hrs, hrc, hkc, RedemptionStatus.inUse] using hmoved
      rw [if_pos hkc]
      refine ⟨?_, fun l hl => ?_⟩
      · show k.usedCount + 1 = couponUses u k.id
        omega
      · have := hlt l (hkk0 ▸ hl)
        show k.usedCount + 1 ≤ l
        rw [hkk0]
        omega
    · rw [if_neg hkc]
      refine ⟨hcount.trans (Eq.symm (count_eq_of_map h.redemptions fun y hy => ?_)), hlimit⟩
      by_cases hyo : y.orderId = order.id
      · have hyr : y = r := redemption_unique hy hr (hyo.trans hro.symm)
        obtain ⟨-, hyk, -⟩ := consume_id order.id y
        have hne : y.couponId ≠ k.id := by
          rw [hyr, hrc]
          exact fun h => hkc h.symm
        simp only [hyk, beq_eq_false_iff_ne.mpr hne, Bool.false_and]
      · rw [consume_other hyo]

theorem PaymentUse.books (hb : CouponBooks none t) (hcount : CouponsCounted u) : CouponBooks none u := by
  refine ⟨hcount, fun cr hcr => ?_⟩
  rw [h.redemptions] at hcr
  obtain ⟨r, hr, rfl⟩ := mem_map.mp hcr
  obtain ⟨-, hrk, hro, -⟩ := consume_id order.id r
  obtain ⟨⟨k, hk, hkid⟩, o, ho, hoid, hfit⟩ := hb.owned r hr
  refine ⟨?_, ?_⟩
  · cases coupon with
    | none => exact ⟨k, by rw [h.without rfl]; exact hk, hkid.trans hrk.symm⟩
    | some c =>
      obtain ⟨-, -, -, hrows⟩ := h.withCoupon c rfl
      refine ⟨_, hrows ▸ mem_map_of_mem hk, ?_⟩
      rw [hrk, ← hkid]
      split <;> rfl
  · refine ⟨_, h.orders ▸ mem_map_of_mem ho, ?_⟩
    by_cases hhit : orderCas order.id order.status order.version o = true
    · rw [if_pos hhit]
      exact ⟨hoid.trans hro.symm, by simp [RedemptionFits, paidOrder]⟩
    · rw [if_neg hhit]
      refine ⟨hoid.trans hro.symm, ?_⟩
      -- only the order of the swap has its redemption consumed
      have hother : r.orderId ≠ order.id := by
        obtain ⟨o', ho', hcas⟩ := h.hit
        intro hrid
        have : o = o' := eq_of_key ho (get?_mem ho') ((hoid.trans hrid).trans (get?_key ho').symm)
        exact hhit (this ▸ hcas)
      rw [consume_other hother]
      exact hfit

theorem PaymentUse.rely (ho : OrdersKept t u) : CouponRely t u := by
  refine ⟨ho, fun r hr => ⟨consume order.id r, ?_, ?_⟩, fun r' hr' => ?_⟩
  · rw [h.redemptions]
    exact mem_map_of_mem hr
  · obtain ⟨hid, hk, hro, -⟩ := consume_id order.id r
    refine ⟨hid, hk, hro, fun hc => ?_, fun hrel => ?_⟩
    · unfold consume
      rw [hc, if_neg (by simp)]
      exact hc
    · by_cases hrid : r.orderId = order.id
      · refine Or.inr fun o hget => ?_
        obtain ⟨o', ho', hcas⟩ := h.hit
        rw [hrid, ho', some.injEq] at hget
        subst hget
        refine ⟨paidOrder (order.version + 1) now o', ?_, ?_⟩
        · rw [hrid, get?_map h.orders (fun x => by split <;> rfl), ho', map_some, if_pos hcas]
        · simp only [orderCas, Bool.and_eq_true, beq_iff_eq] at hcas
          show o'.version < order.version + 1
          omega
      · rw [consume_other hrid]
        exact Or.inl hrel
  · rw [h.redemptions] at hr'
    obtain ⟨r, hr, rfl⟩ := mem_map.mp hr'
    exact Or.inl ⟨r, hr, (consume_id order.id r).1.symm⟩

end

theorem coupon_found (hS : ∀ s, S.inv s → CouponBooks none s) (hR : ∀ s t, S.rely ∅ s t → CouponRely s t)
    {coupon : Option (Id × Bool)} (hb : CouponBooks none t) (hseen : CouponSeen S order coupon t)
    (ho : t.orders.get? order.id = some o) (hcas : orderCas order.id order.status order.version o = true) :
    (coupon.map (·.1) = none → ∀ r ∈ t.redemptions.rows, r.orderId = order.id → r.status ≠ .released) ∧
      ∀ k ∈ coupon.map (·.1), ∃ r ∈ t.redemptions.rows, r.orderId = order.id ∧
        r.status = .released ∧ r.couponId = k := by
  simp only [orderCas, Bool.and_eq_true, beq_iff_eq] at hcas
  obtain ⟨-, hstatus, hversion⟩ := hcas
  rcases hseen with ⟨hpending, rfl⟩ | ⟨hexpired, s, hs, hst, hseen, hread⟩
  · -- an order that is still unpaid has given nothing back
    refine ⟨fun _ r hr hro => ?_, fun k hk => by cases hk⟩
    obtain ⟨-, o', ho', hoid, hfit⟩ := hb.owned r hr
    have : o' = o := eq_of_key ho' (get?_mem ho) ((hoid.trans hro).trans (get?_key ho).symm)
    subst this
    exact hfit.1 (hstatus.trans hpending)
  · obtain ⟨q, hq, hqs, hqo⟩ := hseen
    obtain ⟨b, hbs, hbst, hbv⟩ := (hR _ _ hqs).orders.between (hR _ _ hst).orders hqo ho hversion
    have hrely := hR _ _ hst
    unfold loadReleasedCouponUse at hread
    cases hfind : s.redemptions.rows.find? fun cr => cr.orderId == order.id && cr.status == .released with
    | none =>
      simp only [hfind, bind_eq_bind, bind_none] at hread
      subst hread
      refine ⟨fun _ r hr hro hrel => ?_, fun k hk => by cases hk⟩
      -- the redemption was consumed when it was read, so it still is
      obtain ⟨r0, hr0, hm⟩ := hrely.of_order hr (by rw [hro]; exact hbs)
      have hr0o : r0.orderId = order.id := hm.orderId.symm.trans hro
      obtain ⟨-, b', hb', hbid, hfit⟩ := (hS s hs).owned r0 hr0
      have hbb : b' = b := eq_of_key hb' (get?_mem hbs)
        ((hbid.trans hr0o).trans (get?_key hbs).symm)
      subst hbb
      have hne : r0.status ≠ .released := by
        have := find?_eq_none.mp hfind r0 hr0
        simpa [hr0o] using this
      have hcons : r0.status = .consumed := by
        cases hst0 : r0.status with
        | reserved => exact absurd hst0 ((hfit.2 (hbst.trans hexpired)).resolve_right (by simp))
        | consumed => rfl
        | released => exact absurd hst0 hne
      rw [hm.consumed hcons] at hrel
      cases hrel
    | some r0 =>
      have hr0 := mem_of_find?_eq_some hfind
      have hr0p := find?_some hfind
      rw [Bool.and_eq_true, beq_iff_eq, beq_iff_eq] at hr0p
      obtain ⟨⟨k0, hk0, hkid⟩, -⟩ := (hS s hs).owned r0 hr0
      have hget : s.coupons.get? r0.couponId = some k0 := get?_eq_some_iff.mpr ⟨hk0, hkid⟩
      simp only [hfind, bind_eq_bind, bind_some, hget] at hread
      subst hread
      refine ⟨(fun h => by cases h), fun k hk => ?_⟩
      cases hk
      obtain ⟨r, hr, hm⟩ := hrely.kept r0 hr0
      refine ⟨r, hr, hm.orderId.trans hr0p.1, (hm.released hr0p.2).resolve_right fun hadv => ?_, hm.couponId⟩
      obtain ⟨o', ho', hlt⟩ := hadv b (by rw [hr0p.1]; exact hbs)
      rw [hr0p.1, ho, some.injEq] at ho'
      subst ho'
      omega

end Payment

/-! ## A new order -/

section

variable (h : NewOrder c coupon t u)
include h

theorem NewOrder.counted (hc : CouponsCounted t) : CouponsCounted u := by
  intro k' hk'
  cases coupon with
  | none =>
    obtain ⟨hk, hr⟩ := h.without rfl
    rw [hk] at hk'
    unfold couponUses
    rw [hr]
    exact hc k' hk'
  | some k =>
    obtain ⟨⟨k0, hk0, -, -, hlt⟩, hrows, hred⟩ := h.withCoupon k rfl
    have huses : ∀ id, couponUses u id = couponUses t id + if k.1.id = id then 1 else 0 := by
      intro id
      unfold couponUses
      rw [count_append hred, countP_singleton]
      simp [Checkout.redemption, RedemptionStatus.inUse]
    rw [hrows] at hk'
    obtain ⟨k1, hk1, rfl⟩ := mem_map.mp hk'
    obtain ⟨hcount, hlimit⟩ := hc k1 hk1
    by_cases hid : k1.id = k.1.id
    · have hkk : k1 = k0 := eq_of_key hk1 (get?_mem hk0) (hid.trans (get?_key hk0).symm)
      rw [if_pos hid]
      refine ⟨?_, fun l hl => ?_⟩
      · show k1.usedCount + 1 = couponUses u k1.id
        rw [huses, if_pos hid.symm, hcount]
      · have := hlt l (hkk ▸ hl)
        show k1.usedCount + 1 ≤ l
        rw [hkk]
        omega
    · rw [if_neg hid]
      refine ⟨?_, hlimit⟩
      rw [huses, if_neg fun h => hid h.symm, hcount]
      rfl

theorem NewOrder.books (hb : CouponBooks none t) : CouponBooks none u := by
  obtain ⟨o0, hm0, hs0, -, horders⟩ := h.order
  have hold : ∀ cr ∈ t.redemptions.rows, ∃ o ∈ u.orders.rows, o.id = cr.orderId ∧
      RedemptionFits none o cr.status := by
    intro cr hcr
    obtain ⟨-, o, ho, hoid, hfit⟩ := hb.owned cr hcr
    exact ⟨o, by rw [horders]; exact mem_append_left _ ho, hoid, hfit⟩
  refine ⟨h.counted hb.counted, fun cr hcr => ?_⟩
  cases coupon with
  | none =>
    obtain ⟨hk, hr⟩ := h.without rfl
    rw [hr] at hcr
    rw [hk]
    exact ⟨(hb.owned cr hcr).1, hold cr hcr⟩
  | some k =>
    obtain ⟨⟨k0, hk0, -⟩, hrows, hred⟩ := h.withCoupon k rfl
    have hcoupon : ∀ k1 ∈ t.coupons.rows, ∃ k2 ∈ u.coupons.rows, k2.id = k1.id := by
      intro k1 hk1
      refine ⟨_, hrows ▸ mem_map_of_mem hk1, ?_⟩
      split <;> rfl
    rw [hred] at hcr
    rcases mem_append.mp hcr with hcr | hcr
    · obtain ⟨k1, hk1, hkid⟩ := (hb.owned cr hcr).1
      obtain ⟨k2, hk2, hid⟩ := hcoupon k1 hk1
      exact ⟨⟨k2, hk2, hid.trans hkid⟩, hold cr hcr⟩
    · rw [mem_singleton.mp hcr]
      obtain ⟨k2, hk2, hid⟩ := hcoupon k0 (get?_mem hk0)
      refine ⟨⟨k2, hk2, hid.trans (get?_key hk0)⟩, o0, ?_, hm0.id, ?_⟩
      · rw [horders]
        exact mem_append_right _ (mem_singleton_self _)
      · simp [RedemptionFits, hs0, Checkout.redemption]

theorem NewOrder.rely (hfresh : t.orders.get? c.orderId = none) (ho : OrdersKept t u) : CouponRely t u := by
  have hrows : ∃ rs, u.redemptions.rows = t.redemptions.rows ++ rs ∧ ∀ r ∈ rs, r.orderId = c.orderId := by
    cases coupon with
    | none =>
      refine ⟨[], ?_, fun r hr => by cases hr⟩
      rw [(h.without rfl).2, append_nil]
    | some k =>
      refine ⟨_, (h.withCoupon k rfl).2.2, fun r hr => ?_⟩
      rw [mem_singleton.mp hr]
      rfl
  obtain ⟨rs, hrs, hnew⟩ := hrows
  refine ⟨ho, fun r hr => ⟨r, ?_, rfl, rfl, rfl, fun h => h, Or.inl⟩, fun r' hr' => ?_⟩
  · rw [hrs]
    exact mem_append_left _ hr
  · rw [hrs] at hr'
    rcases mem_append.mp hr' with hr' | hr'
    · exact Or.inl ⟨r', hr', rfl⟩
    · exact Or.inr (by rw [hnew r' hr']; exact hfresh)

end

/-! ## Expiry -/

theorem CouponBooks.close (hb : CouponBooks (some orderId) s)
    (h : ∀ r ∈ s.redemptions.rows, r.orderId = orderId → r.status ≠ .reserved) : CouponBooks none s := by
  refine ⟨hb.counted, fun cr hcr => ?_⟩
  obtain ⟨hk, o, ho, hoid, hfit⟩ := hb.owned cr hcr
  refine ⟨hk, o, ho, hoid, hfit.1, fun hexp => Or.inl ?_⟩
  rcases hfit.2 hexp with hne | hx
  · exact hne
  · exact h cr hcr (hoid.symm.trans (some.inj hx).symm)

theorem expireRelease_quiet {c n1 n2 : Nat} (h1 : update Db.couponsT (fun s c => (s.redemptions.exist fun cr =>
        cr.orderId == orderId && cr.status == .reserved && cr.couponId == c.id) &&
        s.orderIs orderId fun o => o.status == .expired && o.version == version + 1)
      (fun _ c => { c with usedCount := c.usedCount - 1 }) c t1 = .ok (n1, t2))
    (h2 : update Db.redemptionsT (fun s cr => cr.orderId == orderId && cr.status == .reserved &&
        s.orderIs orderId fun o => o.status == .expired && o.version == version + 1)
      (fun _ cr => { cr with status := .released }) n1 t2 = .ok (n2, t3)) :
    CouponQuiet x t1 t3 ∧ (t1.orderIs orderId (fun o => o.status == .expired && o.version == version + 1) = true →
        ∀ r ∈ t3.redemptions.rows, r.orderId = orderId → r.status ≠ .reserved) := by
  obtain ⟨-, tc, hc, rfl⟩ := update_ok h1
  obtain ⟨-, tr, hr, rfl⟩ := update_ok h2
  have hsame : (Db.couponsT.set t1 tc).orderIs orderId (fun o => o.status == .expired && o.version == version + 1) =
      t1.orderIs orderId fun o => o.status == .expired && o.version == version + 1 := rfl
  simp only [hsame] at hr
  constructor
  · refine release_quiet orderId (fun r hrel => ?_) (fun k _ => ?_) rfl hc hr fun r hrel o ho => ?_
    · simp only [Bool.and_eq_true, beq_iff_eq] at hrel
      exact hrel.1
    · simp only [Bool.and_eq_true, beq_iff_eq, exist_iff]
      constructor
      · rintro ⟨⟨r, hrm, ⟨hro, hrs⟩, hrk⟩, hexp⟩
        exact ⟨r, hrm, ⟨⟨hro, hrs⟩, hexp⟩, hrk⟩
      · rintro ⟨r, hrm, ⟨⟨hro, hrs⟩, hexp⟩, hrk⟩
        exact ⟨⟨r, hrm, ⟨hro, hrs⟩, hrk⟩, hexp⟩
    · rw [Bool.and_eq_true] at hrel
      obtain ⟨o', ho', hexp⟩ := orderIs_iff.mp hrel.2
      rw [ho, some.injEq] at ho'
      subst ho'
      simp only [Bool.and_eq_true, beq_iff_eq] at hexp
      rw [hexp.1]
      simp
  · intro hexp r hrm hro hrs
    have hrt : r ∈ tr.rows := hrm
    rw [hr] at hrt
    obtain ⟨r0, -, rfl⟩ := mem_map.mp hrt
    split at hrs
    · cases hrs
    · next hne =>
      rw [if_neg hne] at hro
      exact hne (by simp [hro, hrs, hexp])

theorem expire_coupons (hb : CouponBooks none t) (h : batch (expireBatch orderId version now) 0 t = .ok (ns, u)) :
    CouponBooks none u ∧ CouponQuiet (some orderId) t u := by
  obtain ⟨n1, t1, ms1, h1, h, -⟩ := batch_cons_ok h
  obtain ⟨n2, t2, ms2, h2, h, -⟩ := batch_cons_ok h
  obtain ⟨n3, t3, ms3, h3, hrest, -⟩ := batch_cons_ok h
  have hswap : CouponQuiet (some orderId) t t1 := by
    refine updateOrders_quiet ?_ ?_ _ _ _ _ h1
    · exact fun _ _ => rfl
    · intro s o hp
      rw [Bool.and_eq_true] at hp
      rw [orderCas_id hp.1]
      exact ⟨by simp [setStatus], fun _ => rfl⟩
  have htail : ∀ x, CouponQuiet x t3 u := by
    refine fun x => batch_within (.refl x) (fun _ _ _ => .trans) (fun st hst => ?_) hrest
    exact each_three updateAttempts_couponQuiet (keeps_couponQuiet (insert_off rfl)) (keeps_couponQuiet (update_off rfl)) _
      hst
  refine ⟨(htail none).books ?_, (hswap.trans (expireRelease_quiet h2 h3).1).trans (htail _)⟩
  obtain ⟨-, hrows⟩ := updateOrders_rows (fun _ _ => by rfl) h1
  by_cases hhit : ∃ o ∈ t.orders.rows,
      (orderCas orderId .pendingPayment version o && decide (o.expiresAt ≤ now)) = true
  · obtain ⟨o, ho, hp⟩ := hhit
    have hexpired : t1.orderIs orderId (fun o => o.status == .expired && o.version == version + 1) =
        true := by
      refine orderIs_iff.mpr ⟨setStatus .expired (version + 1) now o, ?_, by simp [setStatus]⟩
      refine get?_eq_some_iff.mpr ⟨?_, ?_⟩
      · rw [hrows]
        exact mem_map.mpr ⟨o, ho, if_pos hp⟩
      · rw [Bool.and_eq_true] at hp
        show o.id = orderId
        exact orderCas_id hp.1
    obtain ⟨hquiet, hnone⟩ := expireRelease_quiet (x := some orderId) h2 h3
    exact (hquiet.books (hswap.books (hb.weaken _))).close (hnone hexpired)
  · -- nothing has expired, so the first statement has touched no row
    have hmiss : t.orders.rows.filter (fun o => orderCas orderId .pendingPayment version o &&
        decide (o.expiresAt ≤ now)) = [] := by
      rw [filter_eq_nil_iff]
      exact fun o ho hp => hhit ⟨o, ho, hp⟩
    have ht1 : t1 = t := by
      have hrun := (updateEach_ok h1).2
      rw [show (Db.ordersT.get t).rows = t.orders.rows from rfl, hmiss] at hrun
      simp only [updateRows, Except.ok.injEq] at hrun
      exact hrun.symm
    subst ht1
    exact (expireRelease_quiet h2 h3).1.books hb

/-! ## The system -/

structure CouponInv (s : Db) : Prop where
  books : CouponBooks none s
  events : PaidHaveEvent s

instance (s : Db) : Decidable (CouponInv s) :=
  decidable_of_iff (CouponBooks none s ∧ PaidHaveEvent s) ⟨fun h => ⟨h.1, h.2⟩, fun h => ⟨h.1, h.2⟩⟩

def newOrderIds (x : Site) (s : Db) : Prop :=
  match x with
  | .createMultiStoreOrder c => s.orders.get? c.orderId = none
  | _ => True

instance (x : Site) (s : Db) : Decidable (newOrderIds x s) := by
  casesm Site <;> dsimp only [newOrderIds] <;> infer_instance

section Batches

variable {τ : Type} {S : Spec Db Site τ} {t u : Db} {ns : List Nat}

theorem ShopBatch.quiet {x : Site} (h : ShopBatch S (· ≠ .expired) x sts t)
    (hx : ∀ c, x ≠ .createMultiStoreOrder c) (hpay : ¬x.isPayment)
    (hexp : ∀ orderId version, x ≠ .expireStoreOrder orderId version) :
    ∀ st ∈ sts, Within (CouponQuiet none) st := by
  intro st hst
  by_cases hside : x.isSide
  · exact (h.side hside st hst).couponQuiet
  have hsettle : ∀ {orderId : Id} {version : Nat} {fulfillment : List (Stmt Db)} {e : PaymentEnv},
      Fulfills S orderId e fulfillment t → ∀ st ∈ settleStatements orderId version fulfillment,
        Within (CouponQuiet none) st := by
    intro orderId version fulfillment e hful st hst
    simp only [settleStatements, mem_append, mem_cons, not_mem_nil, or_false] at hst
    rcases hst with hst | rfl | rfl
    · exact keeps_couponQuiet (fulfillment_keeps hful (by constructor <;> exact fun _ _ => rfl) st hst)
    · exact consumeReserved_quiet orderId
    · exact keeps_couponQuiet (insert_off rfl)
  cases h with
  | freeOrder order fulfillment e _ hful =>
    simp only [freeOrderBatch, mem_append, mem_cons, not_mem_nil, or_false] at hst
    rcases hst with (rfl | rfl) | hst
    · exact updateOrders_quiet (fun _ _ => rfl) fun _ _ _ => by simp [paidOrder]
    · exact keeps_couponQuiet (insert_off rfl)
    · exact hsettle hful st hst
  | walletOrder w user fulfillment e _ _ hful =>
    simp only [walletOrderBatch, walletSwaps, mem_append, mem_cons, not_mem_nil, or_false] at hst
    rcases hst with ((rfl | rfl | rfl) | rfl) | hst
    · exact keeps_couponQuiet (update_off rfl)
    · exact onChanges_within fun _ => keeps_couponQuiet (insert_off rfl)
    · exact updateOrders_quiet (fun _ _ => rfl) fun _ _ _ => by simp [paidOrder]
    · exact keeps_couponQuiet (insert_off rfl)
    · exact hsettle hful st hst
  | transition order toStatus now hA _ hcan =>
    refine each_four ?_ ?_ ?_ ?_ _ hst
    · refine updateOrders_quiet (fun _ _ => ?_) fun _ _ _ => ⟨?_, fun h => ?_⟩
      · split <;> rfl
      · split
        · simp [paidOrder]
        · exact (canTransition_spec hcan).2
      · split at h
        · cases h
        · exact absurd h hA
    · exact keeps_couponQuiet (insert_off rfl)
    · exact keeps_couponQuiet (insert_off rfl)
    · exact keeps_couponQuiet (update_off rfl)
  | cancelUnstarted orderId now =>
    rw [mem_singleton.mp hst]
    exact updateOrders_quiet (fun _ _ => rfl) fun _ _ _ => by simp [advanceOrder]
  | orderPayment => exact absurd trivial hpay
  | expire orderId version now => exact absurd rfl (hexp orderId version)
  | checkout c customer capacity coupon _ _ _ => exact absurd rfl (hx _)
  | _ => exact absurd trivial hside

theorem ShopBatch.coupons {x : Site} (hS : ∀ s, S.inv s → CouponInv s)
    (hR : ∀ s t, S.rely ∅ s t → CouponRely s t) (h : ShopBatch S (· ≠ .expired) x sts t) (hi : CouponInv t)
    (hnew : newOrderIds x t) (hb : batch sts 0 t = .ok (ns, u)) : CouponInv u ∧ CouponRely t u := by
  have hevents : PaidHaveEvent u := h.paidHaveEvent hi.events hb
  have hkept : OrdersKept t u := h.ordersKept hb
  by_cases hpay : x.isPayment
  · cases h with
    | orderPayment channelId event context order coupon fulfillment e hcontext horder hseen hful =>
      obtain ⟨t1, t2, t3, t4, hsteps⟩ := orderPaymentBatch_ok hb
      have huse := hsteps.use hi.events hful
      obtain ⟨o, ho, hcas⟩ := huse.hit
      obtain ⟨hnone, hsome⟩ := coupon_found (fun s hs => (hS s hs).books) hR hi.books hseen ho hcas
      exact ⟨⟨huse.books hi.books (huse.counted hi.books hnone hsome), hevents⟩, huse.rely hkept⟩
    | _ => exact hpay.elim
  by_cases hexp : ∃ orderId version, x = .expireStoreOrder orderId version
  · obtain ⟨orderId, version, rfl⟩ := hexp
    cases h with
    | expire orderId version now =>
      obtain ⟨hbooks, hquiet⟩ := expire_coupons hi.books hb
      exact ⟨⟨hbooks, hevents⟩, hquiet.rely hkept⟩
  by_cases hck : ∃ c, x = .createMultiStoreOrder c
  · obtain ⟨ref, rfl⟩ := hck
    cases h with
    | checkout c customer capacity coupon _ _ _ =>
      have hwritten := newOrder hnew hb
      exact ⟨⟨hwritten.books hi.books, hevents⟩, hwritten.rely hnew hkept⟩
  have hquiet : CouponQuiet none t u :=
    batch_within (.refl none) (fun _ _ _ => .trans) (h.quiet (fun c hc => hck ⟨c, hc⟩) hpay
      fun orderId version hx => hexp ⟨orderId, version, hx⟩) hb
  exact ⟨⟨hquiet.books hi.books, hevents⟩, hquiet.rely hkept⟩

end Batches

def couponSpec : Spec Db Site Empty :=
  Spec.ofRel CouponInv newOrderIds (fun _ _ => True) CouponRely (fun _ => trivial) .refl fun _ _ _ => .trans

theorem coupon_admits : AdmitsShop couponSpec (· ≠ .expired) := by
  intro x sts t ns u h hi hc hb
  obtain ⟨hinv, hrely⟩ := h.coupons (fun _ hs => hs) (fun _ _ hr => hr) hi hc hb
  exact Spec.admits_ofRel hinv trivial fun _ => hrely

abbrev CouponCall := { c : ShopCall // c.within (· ≠ .expired) }

/-- In every run the counter of a coupon is the number of its redemptions in use, and within its
limit. -/
theorem coupons_counted {s : Db} (h0 : CouponInv s) {w : World Db Site DomainError Unit}
    (hrun : Runs (fun c : CouponCall => c.1.code) newOrderIds ⟨s, []⟩ w) : CouponsCounted w.db :=
  (Runs.sound couponSpec (fun c s _ => (ShopCall.bare coupon_admits c.1 c.2 s).ok) hrun
    (good_idle _ h0)).1.1.books.counted

/-! ## A run -/

def oneUseDb : Db where
  sellableItems := .ok [{ id := 7 }]
  coupons := .ok [{ id := 5, purpose := .standard, usageLimit := some 2
                    usageLimitPerCustomer := some 1, usedCount := 0 }]
  channels := .ok [{ id := 1, provider := .stripe }]

def couponCheckout (userId orderId : Id) (now : Time) : Checkout where
  orderId := orderId
  orderNumber := orderId
  userId := some userId
  email := none
  identityEmail := some userId
  totalMinor := 100
  currency := 0
  currencyDecimals := 2
  expiresAt := now + 10
  lines := [{ id := orderId, orderId := orderId, sellableItemId := 7, deliveryComponentId := 7
              deliveryComponentType := .automation, quantity := 1 }]
  couponId := some 5
  couponCurrent := true
  promotionOwner := .ok ()
  redemptionId := orderId
  couponUserValid := true
  referralRewardMinor := 0
  saleComponents := []
  now := now
  nonempty := by simp
  distinct := by simp

def startedPayment (orderId : Id) (now : Time) : ShopCall :=
  .createPayment ⟨orderId, 1, orderId⟩
    ⟨orderId, now, true, fun amount => .ok (amount, 0, 2), .ok (.provider orderId), now⟩

def paymentArrives (orderId : Id) (now : Time) : ShopCall :=
  .webhook 1 (.ok { providerEventId := .provider orderId, providerPaymentId := .provider orderId
                    type := .succeeded, amountMinor := some 100, payloadDigest := orderId })
    ⟨now, fun _ => ⟨orderId, orderId, orderId, orderId⟩⟩

def latePaymentRun : World Db Site DomainError Unit :=
  World.exec (fun c : CouponCall => c.1.code) newOrderIds ⟨oneUseDb, []⟩
    (oneByOne [⟨.checkout (couponCheckout 1 1 0), trivial⟩, ⟨startedPayment 1 1, trivial⟩,
      ⟨.expire 10 10, trivial⟩, ⟨paymentArrives 1 12, trivial⟩] 10)

theorem coupons_counted_latePaymentRun : couponUses latePaymentRun.db 5 = 1 ∧ CouponsCounted latePaymentRun.db :=
  ⟨by set_option maxRecDepth 50000 in decide,
    coupons_counted (by decide) (World.exec_runs (fun c : CouponCall => c.1.code) newOrderIds _ _)⟩

/-- Between two points of a run a consumed use stays consumed, one that was given back is claimed again only as its
order moves on, and a new one belongs to a new order. -/
theorem redemptions_forward {s : Db} (h0 : CouponInv s) {w v : World Db Site DomainError Unit}
    (hrun : Runs (fun c : CouponCall => c.1.code) newOrderIds ⟨s, []⟩ w)
    (hlater : Runs (fun c : CouponCall => c.1.code) newOrderIds w v) :
    (∀ r ∈ w.db.redemptions.rows, ∃ r' ∈ v.db.redemptions.rows, RedemptionLater w.db v.db r r') ∧
      ∀ r' ∈ v.db.redemptions.rows,
        (∃ r ∈ w.db.redemptions.rows, r.id = r'.id) ∨ w.db.orders.get? r'.orderId = none := by
  have hcode : ∀ (c : CouponCall) s, CouponInv s → Prog.Ok couponSpec Prog.anyEnd c.1.code ∅ s :=
    fun c s _ => (ShopCall.bare coupon_admits c.1 c.2 s).ok
  have hrely : CouponRely w.db v.db :=
    (Runs.sound couponSpec hcode hlater (Runs.sound couponSpec hcode hrun (good_idle _ h0)).1).2
  exact ⟨hrely.kept, hrely.old⟩

theorem redemptions_forward_latePaymentRun : oneUseDb.redemptions.rows = [] ∧
    ∀ r' ∈ latePaymentRun.db.redemptions.rows,
      (∃ r ∈ oneUseDb.redemptions.rows, r.id = r'.id) ∨ oneUseDb.orders.get? r'.orderId = none :=
  ⟨rfl, (redemptions_forward (w := ⟨oneUseDb, []⟩) (v := latePaymentRun) (by decide) .refl
    (World.exec_runs (fun c : CouponCall => c.1.code) newOrderIds _ _)).2⟩

end Gmshop
