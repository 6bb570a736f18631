import GmshopEdge.Lib.Calendar
import GmshopEdge.Lib.Guarantee
import GmshopEdge.Lib.Zoom
import GmshopEdge.Orders.NewOrder
import GmshopEdge.Storefront.Coupons
import GmshopEdge.Lib.Checked

/-!
# The monthly cap of referral rewards

`createMultiStoreOrder` (`storefront/server/multi-order.ts`) around its checkout: the price of the cart and
`referralRewardWithheld`, which decides whether the order carries the reward. The state adds what these read to the
tables of the checkout; columns are functions of the row's id there.

A coupon is used at the count it was read at, and a referrer has one coupon, so nobody else earns for the referrer
between the read of the coupon and the order:

    rewards of a month ≤ 100000  (referral_rewards_within_cap)

The clock goes forward. What `canonicalEmail` makes of an address is an argument.
-/

namespace Gmshop

open List Sql Stmt Calendar

/-! ## The state -/

structure ReferralDb where
  db : Db
  /-- `shop_orders.created_at`. -/
  createdAt : Id → Time
  /-- `users.email`. -/
  email : Id → Nat
  /-- `users.email_verified`. -/
  emailVerified : Id → Bool
  /-- The user and the address of the rows of `sessions`. -/
  sessions : List (Id × Nat)
  clock : Time

def ReferralDb.shop : Part ReferralDb Db where
  get := ReferralDb.db
  set s d := { s with db := d }
  get_set _ _ := rfl
  set_get _ := rfl
  set_set _ _ _ := rfl

inductive ReferralSite where
  | shop (x : Site)
  | clock

abbrev ReferralProg := Prog ReferralDb ReferralSite DomainError

/-! ## Dates -/

def dayMs : Nat := 86400000

def utcMonth (t : Time) : Nat := monthOf (t / dayMs)

def getUTCFullYear (t : Time) : Nat := yearOf (utcMonth t)

def getUTCMonth (t : Time) : Nat := utcMonth t % 12

/-- `Date.UTC(year, month, 1)`. -/
def dateUTC (year month : Nat) : Nat := monthStart (12 * (year - 1970) + month) * dayMs

def beijingOffset : Nat := 8 * 3600000

def beijingMonth (t : Time) : Nat := utcMonth (t + beijingOffset)

/-- The year comes from one reading of the clock, the month from the next. -/
def beijingMonthStart (yearAt monthAt : Time) : Int :=
  dateUTC (getUTCFullYear (yearAt + beijingOffset)) (getUTCMonth (monthAt + beijingOffset)) - (beijingOffset : Int)

def namedMonth (yearAt monthAt : Time) : Nat := 12 * (beijingMonth yearAt / 12) + beijingMonth monthAt % 12

variable {monthAt yearAt : Time} {s t u : ReferralDb} {c : Checkout} {coupon : Option (Coupon × Nat)} {r : Id}
  {pricing : StorePricing}

theorem beijingMonthStart_le {t : Time} :
    beijingMonthStart yearAt monthAt ≤ (t : Int) ↔ namedMonth yearAt monthAt ≤ beijingMonth t := by
  have hstart : dateUTC (getUTCFullYear (yearAt + beijingOffset)) (getUTCMonth (monthAt + beijingOffset)) =
      monthStart (namedMonth yearAt monthAt) * dayMs := by
    unfold dateUTC getUTCFullYear yearOf getUTCMonth namedMonth beijingMonth
    rw [Nat.add_sub_cancel_left]
  have hday : monthStart (namedMonth yearAt monthAt) * dayMs ≤ t + beijingOffset ↔
      monthStart (namedMonth yearAt monthAt) ≤ (t + beijingOffset) / dayMs :=
    (Nat.le_div_iff_mul_le (by decide)).symm
  unfold beijingMonthStart
  rw [hstart, sub_le_iff_le_add, beijingMonth, utcMonth, ← monthStart_le, ← hday]
  norm_cast

theorem beijingMonth_mono {a b : Time} (h : a ≤ b) : beijingMonth a ≤ beijingMonth b :=
  monthOf_mono (Nat.div_le_div_right (Nat.add_le_add_right h _))

theorem namedMonth_le (h : yearAt ≤ monthAt) : namedMonth yearAt monthAt ≤ beijingMonth monthAt := by
  have hmono := beijingMonth_mono h
  unfold namedMonth
  omega

/-! ## Rewards -/

def ShopOrderStatus.earnsReward (st : ShopOrderStatus) : Bool :=
  st == .pendingPayment || st == .paid || st == .fulfilling || st == .completed

/-- What the order earns the referrer, if it was created at such a time. -/
def ShopOrder.rewardTo (o : ShopOrder) (referrer : Id) (current : Bool) : Nat :=
  if o.referrerUserId = some referrer ∧ o.status.earnsReward = true ∧ current = true then o.referralRewardMinor else 0

/-- The rewards of the referrer's orders from the times that `p` picks. -/
def ReferralDb.rewards (s : ReferralDb) (referrer : Id) (p : Time → Bool) : Nat :=
  s.db.orders.sum fun o => o.rewardTo referrer (p (s.createdAt o.id))

def ReferralDb.earnedSince (s : ReferralDb) (referrer : Id) (start : Int) : Nat :=
  s.rewards referrer fun t => decide (start ≤ (t : Int))

def ReferralDb.monthlyRewards (s : ReferralDb) (referrer : Id) (month : Nat) : Nat :=
  s.rewards referrer fun t => beijingMonth t == month

theorem rewards_le {referrer : Id} {p q : Time → Bool} (h : ∀ t, p t = true → q t = true) :
    s.rewards referrer p ≤ s.rewards referrer q := by
  apply sum_le_sum
  intro o _
  unfold ShopOrder.rewardTo
  split
  · rename_i hp
    rw [if_pos ⟨hp.1, hp.2.1, h _ hp.2.2⟩]
  · exact Nat.zero_le _

/-! ## The checkout -/

def referralRewardMonthlyCapMinor : Nat := 100000

structure ReferralBuyer where
  userId : Option Id
  email : Option Nat
  ip : Option Nat
  rewardMinor : Nat

def sameMailbox (canonicalEmail : Nat → Nat) (owner email : Option Nat) : Bool :=
  owner.any fun o => email.any fun e => canonicalEmail o == canonicalEmail e

def signedInFrom (referrerUserId : Id) : Option Nat → ReferralProg Bool
  | none => pure false
  | some ip => Prog.query fun s => s.sessions.contains (referrerUserId, ip)

def referralRewardWithheld (canonicalEmail : Nat → Nat) (referrerUserId : Id) (buyer : ReferralBuyer) :
    ReferralProg Bool :=
  match buyer.userId with
  | none => pure true
  | some userId =>
    if userId = referrerUserId then pure true
    else do
      let verified ← Prog.query fun s => ((s.db.users.get? userId).filter (·.enabled)).map fun u => s.emailVerified u.id
      if verified = some true then
        let owner ← Prog.query fun s => (s.db.users.get? referrerUserId).map fun u => s.email u.id
        if sameMailbox canonicalEmail owner buyer.email then pure true
        else
          let signedIn ← signedInFrom referrerUserId buyer.ip
          if signedIn then pure true
          else
            let yearAt ← Prog.query ReferralDb.clock
            let monthAt ← Prog.query ReferralDb.clock
            let earned ← Prog.query fun s => s.earnedSince referrerUserId (beijingMonthStart yearAt monthAt)
            pure (decide (referralRewardMonthlyCapMinor < earned + buyer.rewardMinor))
      else pure true

/-- A cart with the data of its price: the lines, and what pricing reads of the coupon besides its purpose. -/
structure ReferralCheckout where
  checkout : Checkout
  lines : List PricingLine
  terms : StoreCoupon
  collate : String → String → Ordering
  tagged : List String → String → Bool
  canonicalEmail : Nat → Nat
  ip : Option Nat

namespace ReferralCheckout

variable (q : ReferralCheckout)

def price (coupon : Option (Coupon × Nat)) : Except DomainError StorePricing :=
  priceStoreCoupon q.collate q.tagged (coupon.map fun k => { q.terms with purpose := k.1.purpose }) q.lines

def withholdReferralReward (coupon : Option (Coupon × Nat)) (priced : StorePricing) : ReferralProg Bool :=
  match coupon with
  | none => pure false
  | some (coupon, _) => match coupon.purpose, coupon.referrerUserId with
    | .referral, some referrer => referralRewardWithheld q.canonicalEmail referrer
        { userId := q.checkout.userId, email := q.checkout.email, ip := q.ip, rewardMinor := priced.rewardMinor }
    | _, _ => pure false

def priced (priced : StorePricing) (withheld : Bool) (now : Time) : Checkout :=
  { q.checkout with
    totalMinor := (q.lines.map (·.subtotal)).sum - priced.discountMinor
    referralRewardMinor := if withheld then 0 else priced.rewardMinor
    now := now }

end ReferralCheckout

/-- `created_at` of the new order, which its INSERT writes. -/
def setCreatedAt (c : Checkout) : Stmt ReferralDb := fun n s =>
  .ok (n, { s with createdAt := Function.update s.createdAt c.orderId c.now })

def referralBatch (c : Checkout) (capacity : List Id) (coupon : Option (Coupon × Nat)) : List (Stmt ReferralDb) :=
  (checkoutBatch c capacity coupon).map (Stmt.zoom ReferralDb.shop) ++ [setCreatedAt c]

def ReferralCheckout.createMultiStoreOrder (q : ReferralCheckout) : ReferralProg ShopOrder :=
  match q.checkout.customer with
  | none => Prog.throw ⟨"contact_email_required", 400, "Enter an email address to place a guest order"⟩
  | some customer => do
    let capacity ← (prepareLines q.checkout.saleComponents customer q.checkout.items).zoom ReferralDb.shop .shop
    let coupon ← (checkoutCoupon q.checkout).zoom ReferralDb.shop .shop
    let pricing ← (liftExcept (q.price coupon) : Call Site StorePricing).zoom ReferralDb.shop .shop
    let withheld ← q.withholdReferralReward coupon pricing
    let now ← Prog.query ReferralDb.clock
    let c := q.priced pricing withheld now
    Prog.tryCatch (do
      let _ ← Prog.commit (.shop (.createMultiStoreOrder (c.ref customer coupon))) (referralBatch c capacity coupon)
      return c.order)
      fun err => Prog.fail (checkoutError c err)

inductive ReferralCall where
  | checkout (q : ReferralCheckout)
  /-- The clock has come to a later time. -/
  | clock (now : Time)

def referralCode : ReferralCall → ReferralProg Unit
  | .checkout q => q.createMultiStoreOrder.void
  | .clock now => Prog.effect .clock fun s => { s with clock := max s.clock now }

def unusedOrderId (x : ReferralSite) (s : ReferralDb) : Prop :=
  match x with
  | .shop (.createMultiStoreOrder c) => s.db.orders.get? c.orderId = none
  | _ => True

instance (x : ReferralSite) (s : ReferralDb) : Decidable (unusedOrderId x s) := by
  unfold unusedOrderId
  split <;> infer_instance

/-! ## What the calls leave to each other -/

/-- The row of a coupon later on. While its count stands still, its referrer earns nothing. -/
structure InvitationOnward (s t : ReferralDb) (k k' : Coupon) : Prop where
  id : k'.id = k.id
  purpose : k'.purpose = k.purpose
  referrer : k'.referrerUserId = k.referrerUserId
  used : k.usedCount ≤ k'.usedCount
  rewards : k.purpose = .referral → k'.usedCount = k.usedCount → ∀ r, k.referrerUserId = some r →
    ∀ p, t.rewards r p = s.rewards r p

structure ReferralOnward (s t : ReferralDb) : Prop where
  clock : s.clock ≤ t.clock
  coupons : ∀ k ∈ s.db.coupons.rows, ∃ k' ∈ t.db.coupons.rows, InvitationOnward s t k k'

theorem ReferralOnward.refl (s : ReferralDb) : ReferralOnward s s :=
  ⟨le_rfl, fun k hk => ⟨k, hk, rfl, rfl, rfl, le_rfl, fun _ _ _ _ _ => rfl⟩⟩

theorem ReferralOnward.trans (h : ReferralOnward s t) (h' : ReferralOnward t u) : ReferralOnward s u := by
  refine ⟨h.clock.trans h'.clock, fun k hk => ?_⟩
  obtain ⟨k1, hk1, h1⟩ := h.coupons k hk
  obtain ⟨k2, hk2, h2⟩ := h'.coupons k1 hk1
  refine ⟨k2, hk2, h2.id.trans h1.id, h2.purpose.trans h1.purpose, h2.referrer.trans h1.referrer, h1.used.trans h2.used,
    fun hpurpose hcount r hr p => ?_⟩
  -- the count in the middle is between two that are equal
  have hu1 := h1.used
  have hu2 := h2.used
  have hcount1 : k1.usedCount = k.usedCount := by omega
  have hcount2 : k2.usedCount = k1.usedCount := by omega
  rw [h2.rewards (h1.purpose.trans hpurpose) hcount2 r (h1.referrer.trans hr) p, h1.rewards hpurpose hcount1 r hr p]

/-- A referrer has one invitation coupon (`coupons_referrer_uidx`). -/
def OneInvitation (s : Db) : Prop :=
  ∀ k ∈ s.coupons.rows, ∀ k' ∈ s.coupons.rows, k.purpose = .referral → k'.purpose = .referral →
    ∀ r, k.referrerUserId = some r → k'.referrerUserId = some r → k.id = k'.id

instance (s : Db) : Decidable (OneInvitation s) :=
  decidable_of_iff (∀ k ∈ s.coupons.rows, ∀ k' ∈ s.coupons.rows, k.purpose = .referral → k'.purpose = .referral →
    ∀ r ∈ k.referrerUserId, k'.referrerUserId = some r → k.id = k'.id)
    ⟨fun h k hk k' hk' hp hp' r hr => h k hk k' hk' hp hp' r hr, fun h k hk k' hk' hp hp' r hr => h k hk k' hk' hp hp' r hr⟩

structure ReferralInv (s : ReferralDb) : Prop where
  invitation : OneInvitation s.db
  capped : ∀ r month, s.monthlyRewards r month ≤ referralRewardMonthlyCapMinor

def referralSpec : Spec ReferralDb ReferralSite Empty :=
  Spec.ofRel ReferralInv unusedOrderId (fun _ _ => True) ReferralOnward (fun _ => trivial) ReferralOnward.refl
    fun _ _ _ => ReferralOnward.trans

theorem referral_admits (hi : ReferralInv t) (hr : ReferralOnward s t) : referralSpec.Admits ∅ ∅ s t :=
  Spec.admits_ofRel hi trivial fun _ => hr

/-! ## The order -/

/-- What a checkout has made sure of when its batch runs with this coupon. -/
structure RewardChecked (c : Checkout) (k : Coupon) (t : ReferralDb) : Prop where
  known : ∃ k0 ∈ t.db.coupons.rows, k0.id = k.id ∧ k0.purpose = k.purpose ∧ k0.referrerUserId = k.referrerUserId
  unrewarded : k.purpose = .recall → c.referralRewardMinor = 0
  room : k.purpose = .referral → ∀ r, k.referrerUserId = some r → 0 < c.referralRewardMinor →
    (∃ k0 ∈ t.db.coupons.rows, k0.id = k.id ∧ k0.usedCount = k.usedCount) →
    t.monthlyRewards r (beijingMonth c.now) + c.referralRewardMinor ≤ referralRewardMonthlyCapMinor

theorem referralBatch_ok {capacity : List Id} {ns : List Nat} (hfresh : t.db.orders.get? c.orderId = none)
    (h : batch (referralBatch c capacity coupon) 0 t = .ok (ns, u)) :
    NewOrder c coupon t.db u.db ∧ u.db.orders.rows = t.db.orders.rows ++ [c.placed coupon] ∧
      u.createdAt = Function.update t.createdAt c.orderId c.now ∧ u.clock = t.clock := by
  obtain ⟨ns1, v, ns2, hzoom, hcreated, -⟩ := batch_append_ok h
  obtain ⟨d, hcheckout, rfl⟩ := batch_zoom_ok hzoom
  obtain ⟨hnew, hrow⟩ := newOrder_placed hfresh hcheckout
  obtain ⟨n, hset, -⟩ := batch_single_ok hcreated
  obtain ⟨-, rfl⟩ := Prod.mk.inj (Except.ok.inj hset)
  exact ⟨hnew, hrow, rfl, rfl⟩

theorem rewards_placed (hfresh : t.db.orders.get? c.orderId = none)
    (hrow : u.db.orders.rows = t.db.orders.rows ++ [c.placed coupon])
    (hcreated : u.createdAt = Function.update t.createdAt c.orderId c.now) (r : Id) (p : Time → Bool) :
    u.rewards r p = t.rewards r p + (c.placed coupon).rewardTo r (p c.now) := by
  have hid : (c.placed coupon).id = c.orderId := (c.placed_move coupon).1.id
  unfold ReferralDb.rewards Table.sum
  rw [hrow, hcreated, map_append, sum_append, map_singleton, sum_singleton, hid, Function.update_self]
  congr 2
  refine map_congr_left fun o ho => ?_
  have hne : o.id ≠ c.orderId := fun h => by
    rw [Table.get?_eq_some_iff.mpr ⟨ho, h⟩] at hfresh
    cases hfresh
  rw [Function.update_of_ne hne]

theorem placed_rewardTo {current : Bool} (hchecked : ∀ k ∈ coupon, RewardChecked c k.1 t)
    (h : (c.placed coupon).rewardTo r current ≠ 0) :
    ∃ k, coupon = some k ∧ k.1.purpose = .referral ∧ k.1.referrerUserId = some r ∧ current = true ∧
      0 < c.referralRewardMinor ∧ (c.placed coupon).rewardTo r current = c.referralRewardMinor := by
  -- an order without a promotion has no referrer
  have hplain : c.order.rewardTo r current = 0 := if_neg fun h => nomatch h.1
  cases coupon with
  | none => exact absurd hplain h
  | some k =>
    cases hpurpose : k.1.purpose with
    | standard =>
      rw [Checkout.placed_standard hpurpose] at h
      exact absurd hplain h
    | «recall» =>
      have hzero := (hchecked k rfl).unrewarded hpurpose
      rw [Checkout.placed_promotion (by rw [hpurpose]; decide)] at h
      unfold ShopOrder.rewardTo at h
      split at h
      · exact absurd hzero h
      · exact absurd rfl h
    | referral =>
      have hne : k.1.purpose ≠ .standard := by rw [hpurpose]; decide
      rw [Checkout.placed_promotion hne] at h ⊢
      unfold ShopOrder.rewardTo at h ⊢
      split at h
      · rename_i hcond
        exact ⟨k, rfl, hpurpose, hcond.1, hcond.2.2, Nat.pos_of_ne_zero h, if_pos hcond⟩
      · exact absurd rfl h

section Placed

variable {c : Checkout} {coupon : Option (Coupon × Nat)} {t u : ReferralDb}

theorem placed_coupons (hnew : NewOrder c coupon t.db u.db) : u.db.coupons.rows = t.db.coupons.rows.map fun k0 =>
    if ∃ k, coupon = some k ∧ k0.id = k.1.id then { k0 with usedCount := k0.usedCount + 1 } else k0 := by
  cases coupon with
  | none =>
    rw [(hnew.without rfl).1]
    refine ((map_congr_left fun k0 _ => if_neg ?_).trans (map_id' _)).symm
    rintro ⟨k, hk, -⟩
    cases hk
  | some k =>
    rw [(hnew.withCoupon k rfl).2.1]
    refine map_congr_left fun k0 _ => ?_
    by_cases hid : k0.id = k.1.id
    · rw [if_pos hid, if_pos ⟨k, rfl, hid⟩]
    · rw [if_neg hid, if_neg]
      rintro ⟨k', hk', hid'⟩
      cases hk'
      exact hid hid'

theorem placed_others (hi : ReferralInv t) (hchecked : ∀ k ∈ coupon, RewardChecked c k.1 t) {k0 : Coupon}
    (hk0 : k0 ∈ t.db.coupons.rows) (hother : ¬∃ k, coupon = some k ∧ k0.id = k.1.id)
    (hpurpose : k0.purpose = .referral) (hr : k0.referrerUserId = some r) (current : Bool) :
    (c.placed coupon).rewardTo r current = 0 := by
  by_contra hne
  obtain ⟨k, rfl, hreferral, hreferrer, -⟩ := placed_rewardTo hchecked hne
  obtain ⟨k1, hk1, hid, hp1, hr1⟩ := (hchecked k rfl).known
  refine hother ⟨k, rfl, ?_⟩
  rw [← hid]
  exact hi.invitation k0 hk0 k1 hk1 hpurpose (hp1.trans hreferral) r hr (hr1.trans hreferrer)

theorem placed_onward (hfresh : t.db.orders.get? c.orderId = none) (hi : ReferralInv t)
    (hchecked : ∀ k ∈ coupon, RewardChecked c k.1 t) (hnew : NewOrder c coupon t.db u.db)
    (hrow : u.db.orders.rows = t.db.orders.rows ++ [c.placed coupon])
    (hcreated : u.createdAt = Function.update t.createdAt c.orderId c.now) (hclock : u.clock = t.clock) :
    ReferralInv u ∧ ReferralOnward t u := by
  have hcoupons := placed_coupons hnew
  have hrewards := rewards_placed hfresh hrow hcreated
  have hsame : ∀ k1 ∈ u.db.coupons.rows, ∃ k0 ∈ t.db.coupons.rows,
      k1.id = k0.id ∧ k1.purpose = k0.purpose ∧ k1.referrerUserId = k0.referrerUserId := by
    intro k1 hk1
    rw [hcoupons] at hk1
    obtain ⟨k0, hk0, rfl⟩ := mem_map.mp hk1
    refine ⟨k0, hk0, ?_⟩
    split <;> exact ⟨rfl, rfl, rfl⟩
  refine ⟨⟨?_, ?_⟩, hclock.ge, ?_⟩
  · intro k hk k' hk' hpurpose hpurpose' r hr hr'
    obtain ⟨k0, hk0, hid, hp, href⟩ := hsame k hk
    obtain ⟨k0', hk0', hid', hp', href'⟩ := hsame k' hk'
    rw [hid, hid']
    exact hi.invitation k0 hk0 k0' hk0' (hp ▸ hpurpose) (hp' ▸ hpurpose') r (href ▸ hr) (href' ▸ hr')
  · intro r month
    show u.rewards r _ ≤ _
    rw [hrewards]
    by_cases hzero : (c.placed coupon).rewardTo r (beijingMonth c.now == month) = 0
    · rw [hzero]
      exact hi.capped r month
    · obtain ⟨k, rfl, hpurpose, hreferrer, hcurrent, hpos, hreward⟩ := placed_rewardTo hchecked hzero
      obtain ⟨⟨k0, hk0, -, hcount, -⟩, -⟩ := hnew.withCoupon k rfl
      have hroom := (hchecked k rfl).room hpurpose r hreferrer hpos ⟨k0, Table.get?_mem hk0, Table.get?_key hk0, hcount⟩
      rw [hreward, ← beq_iff_eq.mp hcurrent]
      exact hroom
  · intro k0 hk0
    by_cases hused : ∃ k, coupon = some k ∧ k0.id = k.1.id
    · refine ⟨{ k0 with usedCount := k0.usedCount + 1 }, ?_, rfl, rfl, rfl, Nat.le_succ _, fun _ hcount => ?_⟩
      · rw [hcoupons]
        refine mem_map.mpr ⟨k0, hk0, if_pos hused⟩
      · exact absurd hcount (Nat.succ_ne_self _)
    · refine ⟨k0, ?_, rfl, rfl, rfl, le_rfl, fun hpurpose _ r hr p => ?_⟩
      · rw [hcoupons]
        refine mem_map.mpr ⟨k0, hk0, if_neg hused⟩
      · rw [hrewards, placed_others hi hchecked hk0 hused hpurpose hr, Nat.add_zero]

end Placed

/-! ## The checks -/

theorem pricePromotion_recall {collate : String → String → Ordering} {items : List PromotionItem}
    {pricing : PromotionPricing} (h : pricePromotion collate .recall items = .ok pricing) : pricing.rewardMinor = 0 := by
  unfold pricePromotion at h
  split at h
  · rw [← Except.ok.inj h]
    rfl
  · cases h

variable {q : ReferralCheckout}

theorem price_recall {k : Coupon × Nat} (hpurpose : k.1.purpose = .recall)
    (h : q.price (some k) = .ok pricing) : pricing.rewardMinor = 0 := by
  unfold ReferralCheckout.price priceStoreCoupon at h
  rw [Option.map_some, hpurpose] at h
  simp only [bind, Except.bind] at h
  split at h
  · cases h
  · split at h
    · cases h
    · simp only [couponPurpose, pricePromotionCoupon, bind, Except.bind] at h
      split at h
      · cases h
      · split at h
        · cases h
        · rename_i p hp
          split at h
          · cases h
          · rw [← Except.ok.inj h]
            exact pricePromotion_recall hp

/-- The reward fits into what the month had left when it was read, on the way from `s` to `t`. -/
def FitsSince (referrer : Id) (reward : Nat) (s t : ReferralDb) : Prop :=
  ∃ s1 start, ReferralOnward s s1 ∧ ReferralOnward s1 t ∧ start ≤ beijingMonth t.clock ∧
    s1.rewards referrer (fun a => decide (start ≤ beijingMonth a)) + reward ≤ referralRewardMonthlyCapMinor

theorem earnedSince_eq (s : ReferralDb) (referrer : Id) (yearAt monthAt : Time) :
    s.earnedSince referrer (beijingMonthStart yearAt monthAt) =
      s.rewards referrer fun a => decide (namedMonth yearAt monthAt ≤ beijingMonth a) := by
  unfold ReferralDb.earnedSince
  congr 1
  funext a
  exact decide_eq_decide.mpr beijingMonthStart_le

theorem signedInFrom_answers (referrer : Id) (ip : Option Nat) (s : ReferralDb) :
    Prog.Answers referralSpec (fun _ _ => True) (signedInFrom referrer ip) s := by
  cases ip with
  | none => exact Prog.Answers.done trivial
  | some ip => exact Prog.Bare.answers ((Prog.reads_query _).bare s)

theorem referralRewardWithheld_answers (canonicalEmail : Nat → Nat) (referrer : Id) (buyer : ReferralBuyer)
    (s : ReferralDb) : Prog.Answers referralSpec
      (fun withheld t => withheld = false → FitsSince referrer buyer.rewardMinor s t)
      (referralRewardWithheld canonicalEmail referrer buyer) s := by
  have hwithheld : ∀ t, Prog.Answers referralSpec
      (fun withheld u => withheld = false → FitsSince referrer buyer.rewardMinor s u) (Prog.done true : ReferralProg Bool) t :=
    fun t => Prog.Answers.done fun h => nomatch h
  unfold referralRewardWithheld
  split
  · exact hwithheld s
  split
  · exact hwithheld s
  refine Prog.Answers.query fun t1 h1 _ => ?_
  split
  · refine Prog.Answers.query fun t2 h2 _ => ?_
    split
    · exact hwithheld t2
    refine Prog.Answers.bind (signedInFrom_answers _ _ t2) fun signedIn t3 h3 _ => ?_
    split
    · exact hwithheld t3
    refine Prog.Answers.query fun t4 h4 _ => ?_
    refine Prog.Answers.query fun t5 h5 _ => ?_
    refine Prog.Answers.query fun t6 h6 _ => Prog.Answers.done fun hfalse => ?_
    have hroom := of_decide_eq_false hfalse
    rw [earnedSince_eq, Nat.not_lt] at hroom
    refine ⟨t6, _, ?_, ReferralOnward.refl t6, ?_, hroom⟩
    · exact h1.trans (h2.trans (h3.trans (h4.trans (h5.trans h6))))
    · exact (namedMonth_le h5.clock).trans (beijingMonth_mono h6.clock)
  · exact hwithheld t1

def CouponRead (coupon : Option (Coupon × Nat)) (t : ReferralDb) : Prop :=
  ∀ k ∈ coupon, ∃ s, ReferralOnward s t ∧ k.1 ∈ s.db.coupons.rows

theorem liftExcept_reads {α : Type} (r : Except DomainError α) :
    Prog.Reads (fun a => r = .ok a) (liftExcept r : Call Site α) := by
  cases r with
  | ok a => rfl
  | error e => trivial

theorem loadCoupon_answers (c : Checkout) (couponId : Id) (email : Nat) (s : ReferralDb) :
    Prog.Answers referralSpec (fun k t => CouponRead (some (k, email)) t)
      ((loadCoupon c couponId email).zoom ReferralDb.shop .shop) s := by
  unfold loadCoupon
  rw [Prog.zoom_bind, Prog.zoom_query]
  refine Prog.Answers.query fun t _ _ => ?_
  generalize hrow : Option.map _ _ = row
  cases row with
  | none => exact Prog.Answers.throw _
  | some x =>
    obtain ⟨k, uses⟩ := x
    obtain ⟨k', hk', hx⟩ := Option.map_eq_some_iff.mp hrow
    cases hx
    have hk : k ∈ t.db.coupons.rows := Table.get?_mem (Option.mem_filter_iff.mp hk').1
    dsimp only
    split
    · exact Prog.Answers.throw _
    split
    · exact Prog.Answers.throw _
    · rw [Prog.zoom_bind]
      refine Prog.Answers.bind (((liftExcept_reads c.promotionOwner).zoom.bare t).answers) fun _ u hu _ => ?_
      refine Prog.Answers.done fun x hx => ?_
      cases hx
      exact ⟨t, hu, hk⟩

theorem checkoutCoupon_answers (c : Checkout) (s : ReferralDb) : Prog.Answers referralSpec CouponRead
    ((checkoutCoupon c).zoom ReferralDb.shop .shop) s := by
  unfold checkoutCoupon
  cases c.couponId with
  | none => exact Prog.Answers.done fun k hk => nomatch hk
  | some couponId =>
    cases c.couponIdentity with
    | none => exact Prog.Answers.throw _
    | some email =>
      dsimp only
      rw [Prog.zoom_bind]
      exact (loadCoupon_answers c couponId email s).bind fun k t _ hread => Prog.Answers.done hread

theorem withholdReferralReward_answers (q : ReferralCheckout) (coupon : Option (Coupon × Nat)) (pricing : StorePricing)
    (s : ReferralDb) : Prog.Answers referralSpec
      (fun withheld t => ∀ k ∈ coupon, k.1.purpose = .referral → ∀ r, k.1.referrerUserId = some r →
        withheld = false → FitsSince r pricing.rewardMinor s t)
      (q.withholdReferralReward coupon pricing) s := by
  have hnone : (∀ k ∈ coupon, k.1.purpose = .referral → k.1.referrerUserId = none) → Prog.Answers referralSpec
      (fun withheld t => ∀ k ∈ coupon, k.1.purpose = .referral → ∀ r, k.1.referrerUserId = some r →
        withheld = false → FitsSince r pricing.rewardMinor s t) (Prog.done false : ReferralProg Bool) s := by
    intro h
    refine Prog.Answers.done fun k hk hpurpose r hr => ?_
    rw [h k hk hpurpose] at hr
    cases hr
  unfold ReferralCheckout.withholdReferralReward
  cases coupon with
  | none => exact hnone fun k hk => nomatch hk
  | some x =>
    obtain ⟨k, email⟩ := x
    dsimp only
    split
    · rename_i referrer hpurpose hreferrer
      refine Prog.Ok.mono ?_ (referralRewardWithheld_answers q.canonicalEmail referrer
        { userId := q.checkout.userId, email := q.checkout.email, ip := q.ip, rewardMinor := pricing.rewardMinor } s)
      rintro r o t ⟨ho, hr, hfits⟩
      refine ⟨ho, hr, fun withheld hwithheld k' hk' _ r' hr' hfalse => ?_⟩
      cases hk'
      obtain rfl : referrer = r' := Option.some.inj (hreferrer.symm.trans hr')
      exact hfits withheld hwithheld hfalse
    · rename_i hother
      refine hnone fun k' hk' hpurpose => ?_
      cases hk'
      cases hreferrer : k.referrerUserId with
      | none => rfl
      | some r => exact absurd hreferrer (hother r hpurpose)

theorem reward_checked {withheld : Bool} {w n : ReferralDb} (hprice : q.price coupon = .ok pricing)
    (hread : CouponRead coupon s)
    (hfits : ∀ k ∈ coupon, k.1.purpose = .referral → ∀ r, k.1.referrerUserId = some r → withheld = false →
      FitsSince r pricing.rewardMinor s w) (hsw : ReferralOnward s w) (hwn : ReferralOnward w n)
    (hnt : ReferralOnward n t) : ∀ k ∈ coupon, RewardChecked (q.priced pricing withheld n.clock) k.1 t := by
  intro k hk
  obtain ⟨s0, hs0, hk0⟩ := hread k hk
  have hst : ReferralOnward s t := hsw.trans (hwn.trans hnt)
  refine ⟨?_, fun hpurpose => ?_, fun hpurpose r hr hpos hcas => ?_⟩
  · obtain ⟨k1, hk1, h1⟩ := (hs0.trans hst).coupons k.1 hk0
    exact ⟨k1, hk1, h1.id, h1.purpose, h1.referrer⟩
  · cases hk
    show (if withheld then 0 else pricing.rewardMinor) = 0
    rw [price_recall hpurpose hprice, ite_self]
  · cases withheld with
    | true => exact absurd hpos (Nat.lt_irrefl 0)
    | false =>
      obtain ⟨s1, start, hs1, h1w, hstart, hroom⟩ := hfits k hk hpurpose r hr rfl
      have h1t : ReferralOnward s1 t := h1w.trans (hwn.trans hnt)
      obtain ⟨k1, hk1, h1⟩ := (hs0.trans hs1).coupons k.1 hk0
      obtain ⟨k2, hk2, h2⟩ := h1t.coupons k1 hk1
      -- the swap would find the count that was read, which has then stood still
      obtain ⟨k3, hk3, hid, hcount⟩ := hcas
      obtain rfl : k3 = k2 := Table.eq_of_key hk3 hk2 (hid.trans (h2.id.trans h1.id).symm)
      have hu1 := h1.used
      have hu2 := h2.used
      have hsame := h2.rewards (h1.purpose.trans hpurpose) (by omega) r (h1.referrer.trans hr)
      have hle : t.monthlyRewards r (beijingMonth n.clock) ≤
          s1.rewards r fun a => decide (start ≤ beijingMonth a) := by
        rw [← hsame]
        refine rewards_le fun a ha => decide_eq_true ?_
        rw [beq_iff_eq.mp ha]
        exact hstart.trans (beijingMonth_mono hwn.clock)
      show _ + pricing.rewardMinor ≤ _
      show t.monthlyRewards r (beijingMonth n.clock) + pricing.rewardMinor ≤ _
      omega

/-! ## The calls -/

theorem assertPurchaseLimit_reads (customer : Customer) (line : ShopOrderItem) :
    Prog.Reads (fun _ => True) (assertPurchaseLimit customer line) := by
  unfold assertPurchaseLimit
  refine (Prog.reads_query _).bind fun limit _ => ?_
  cases limit with
  | none => trivial
  | some limit =>
    refine (Prog.reads_query _).bind fun total _ => ?_
    split <;> trivial

theorem prepareLine_reads (saleComponents : List Id) (line : ShopOrderItem) :
    Prog.Reads (fun _ => True) (prepareLine saleComponents line) := by
  unfold prepareLine prepareSale
  split
  · split
    · trivial
    · refine (Prog.reads_query _).bind fun count _ => ?_
      split <;> trivial
  · trivial

theorem prepareLines_reads (saleComponents : List Id) (customer : Customer) (lines : List ShopOrderItem) :
    Prog.Reads (fun _ => True) (prepareLines saleComponents customer lines) := by
  induction lines with
  | nil => trivial
  | cons line rest ih =>
    refine (assertPurchaseLimit_reads customer line).bind fun _ _ => ?_
    refine (prepareLine_reads saleComponents line).bind fun capacity _ => ?_
    exact ih.bind fun _ _ => trivial

theorem createMultiStoreOrder_answers (q : ReferralCheckout) (s : ReferralDb) :
    Prog.Answers referralSpec (fun _ _ => True) q.createMultiStoreOrder s := by
  unfold ReferralCheckout.createMultiStoreOrder
  split
  · exact Prog.Answers.throw _
  rename_i customer hcustomer
  refine Prog.Answers.bind (((prepareLines_reads _ _ _).zoom.bare s).answers) fun capacity t1 _ _ => ?_
  refine Prog.Answers.bind (checkoutCoupon_answers q.checkout t1) fun coupon t2 _ hread => ?_
  refine Prog.Answers.bind (M := fun pricing t => q.price coupon = .ok pricing ∧ ReferralOnward t2 t) ?_
    fun pricing t3 _ hpriced => ?_
  · cases q.price coupon with
    | ok pricing => exact Prog.Answers.done ⟨rfl, ReferralOnward.refl t2⟩
    | error e => exact Prog.Answers.throw e
  obtain ⟨hprice, h23⟩ := hpriced
  have hread3 : CouponRead coupon t3 := fun k hk =>
    let ⟨s0, hs0, hk0⟩ := hread k hk
    ⟨s0, hs0.trans h23, hk0⟩
  refine Prog.Answers.bind (withholdReferralReward_answers q coupon pricing t3) fun withheld t4 h34 hfits => ?_
  refine Prog.Answers.query fun t5 h45 _ => Prog.Answers.tryCatch ?_ fun e t _ => Prog.Answers.fail _
  refine Prog.Answers.commit fun t h5t hi hfresh ns u hbatch => ?_
  have hchecked := reward_checked hprice hread3 hfits h34 h45 h5t
  obtain ⟨hnew, hrow, hcreated, hclock⟩ := referralBatch_ok hfresh hbatch
  obtain ⟨hinv, honward⟩ := placed_onward hfresh hi hchecked hnew hrow hcreated hclock
  exact ⟨referral_admits hinv honward, Prog.Answers.done trivial⟩

theorem referral_answers (c : ReferralCall) (s : ReferralDb) :
    Prog.Answers referralSpec (fun _ _ => True) (referralCode c) s := by
  cases c with
  | checkout q => exact (createMultiStoreOrder_answers q s).bind fun _ _ _ _ => Prog.Answers.done trivial
  | clock now =>
    intro t hr hi _ _
    have honward : ReferralOnward t { t with clock := max t.clock now } :=
      ⟨Nat.le_max_left _ _, fun k hk => ⟨k, hk, rfl, rfl, rfl, le_rfl, fun _ _ _ _ _ => rfl⟩⟩
    have hinv : ReferralInv { t with clock := max t.clock now } := ⟨hi.invitation, hi.capped⟩
    exact ⟨∅, referral_admits hinv honward, rfl, ReferralOnward.trans hr honward, fun _ _ => trivial⟩

/-- However the checkouts interleave, the referrer's rewards of a month stay within the cap. -/
theorem referral_rewards_within_cap {s : ReferralDb} (hinvitation : OneInvitation s.db)
    (hcapped : ∀ r month, s.monthlyRewards r month ≤ referralRewardMonthlyCapMinor)
    {w : World ReferralDb ReferralSite DomainError Unit} (h : Runs referralCode unusedOrderId ⟨s, []⟩ w)
    (referrer : Id) (month : Nat) : w.db.monthlyRewards referrer month ≤ referralRewardMonthlyCapMinor :=
  (Runs.answers (S := referralSpec) (fun _ _ _ _ h => h) (fun c t _ => referral_answers c t) ⟨hinvitation, hcapped⟩
    h).1.capped referrer month

/-! ## A run -/

def nearCapDb : ReferralDb where
  db :=
    { users := .ok [{ id := 1 }, { id := 2 }, { id := 9 }]
      sellableItems := .ok [{ id := 7 }]
      coupons := .ok [{ id := 5, purpose := .referral, usedCount := 1, referrerUserId := some 9 }]
      orders := .ok [{ id := 90, status := .paid, version := 2, totalMinor := 0, promotionPurpose := some .referral
                       referrerUserId := some 9, referralRewardMinor := 99700 }] }
  createdAt _ := 0
  email id := id
  emailVerified _ := true
  sessions := []
  clock := 0

def invitedCheckout (userId orderId : Id) : ReferralCheckout where
  checkout :=
    { orderId := orderId, orderNumber := orderId, userId := some userId, email := some userId, identityEmail := some userId
      totalMinor := 0, currency := 0, currencyDecimals := 2, expiresAt := 10
      lines := [{ id := orderId, orderId := orderId, sellableItemId := 7, deliveryComponentId := 7
                  deliveryComponentType := .automation, quantity := 1 }]
      couponId := some 5, couponCurrent := true, promotionOwner := .ok (), redemptionId := orderId
      couponUserValid := true, referralRewardMinor := 0, saleComponents := [], now := 0
      nonempty := (fun h => by cases h), distinct := List.nodup_singleton 7 }
  lines := [⟨"a", ⟨"a", "a", "CNY", 2, "400"⟩, 1000, .list, 1⟩]
  terms := { purpose := .referral, type := .fixed }
  collate := compare
  tagged _ _ := false
  canonicalEmail := id
  ip := none

/-- Two buyers have both found room for their rewards when the first of them orders; the second orders later. -/
def racingReferralRun : World ReferralDb ReferralSite DomainError Unit :=
  World.exec referralCode unusedOrderId ⟨nearCapDb, []⟩
    ([Move.start (.checkout (invitedCheckout 1 1)), Move.start (.checkout (invitedCheckout 2 2))] ++
      List.replicate 8 (Move.run 0) ++ List.replicate 8 (Move.run 1) ++ [Move.run 0, Move.run 1] ++
      [Move.start (.checkout (invitedCheckout 2 3))] ++ List.replicate 9 (Move.run 2))

theorem nearCapDb_capped (r : Id) (month : Nat) : nearCapDb.monthlyRewards r month ≤ referralRewardMonthlyCapMinor := by
  show ShopOrder.rewardTo _ _ _ + 0 ≤ _
  unfold ShopOrder.rewardTo
  split <;> decide

theorem referral_rewards_within_cap_racing :
    racingReferralRun.db.db.orders.rows.map (fun o => (o.id, o.referralRewardMinor)) = [(90, 99700), (1, 200), (3, 0)] ∧
      racingReferralRun.db.monthlyRewards 9 0 ≤ referralRewardMonthlyCapMinor :=
  ⟨by decide, referral_rewards_within_cap (by decide) nearCapDb_capped
    (World.exec_runs referralCode unusedOrderId _ _) 9 0⟩

end Gmshop
