import GmshopEdge.Orders.Statements

/-!
# What a checkout has written

A committed checkout has added its order and its items, and with a coupon one redemption and one use:
its order row hangs on the swap of the coupon, and its items on the order row.
-/

namespace Gmshop

open List Sql Stmt Table Prod

def Checkout.redemption (c : Checkout) (k : Coupon × Nat) : CouponRedemption :=
  { id := c.redemptionId, couponId := k.1.id, orderId := c.orderId, userId := c.userId
    normalizedEmail := k.2, status := .reserved }

/-- The order row that the batch of a checkout leaves: a promotion marks it. -/
def Checkout.placed (c : Checkout) (coupon : Option (Coupon × Nat)) : ShopOrder :=
  match coupon with
  | none => c.order
  | some k => if k.1.purpose = .standard then c.order
    else { c.order with promotionPurpose := some k.1.purpose, referrerUserId := k.1.referrerUserId
                        referralRewardMinor := c.referralRewardMinor }

variable {c : Checkout} {k : Coupon × Nat} {capacity : List Id} {s s' t u : Db} {n : Nat} {ns : List Nat}
  {coupon : Option (Coupon × Nat)}

theorem Checkout.placed_standard (h : k.1.purpose = .standard) : c.placed (some k) = c.order :=
  if_pos h

theorem Checkout.placed_promotion (h : k.1.purpose ≠ .standard) : c.placed (some k) =
    { c.order with promotionPurpose := some k.1.purpose, referrerUserId := k.1.referrerUserId
                   referralRewardMinor := c.referralRewardMinor } :=
  if_neg h

theorem Checkout.placed_move (c : Checkout) (coupon : Option (Coupon × Nat)) :
    OrderMove c.order (c.placed coupon) ∧ (c.placed coupon).status = .pendingPayment ∧ (c.placed coupon).version = 1 := by
  unfold placed
  split
  · exact ⟨⟨rfl, rfl, rfl, rfl⟩, rfl, rfl⟩
  · split <;> exact ⟨⟨rfl, rfl, rfl, rfl⟩, rfl, rfl⟩

/-- The coupon swap of a checkout that has read this count hits the row. -/
def usable (usedCount : Nat) (k0 : Coupon) : Prop :=
  k0.enabled = true ∧ k0.usedCount = usedCount ∧ ∀ l ∈ k0.usageLimit, k0.usedCount < l

instance (usedCount : Nat) (k0 : Coupon) : Decidable (usable usedCount k0) :=
  inferInstanceAs (Decidable (_ ∧ _))

/-- What the batch of a checkout has done to the orders, the items, the coupons and the redemptions. -/
structure NewOrder (c : Checkout) (coupon : Option (Coupon × Nat)) (t u : Db) : Prop where
  order : ∃ o, OrderMove c.order o ∧ o.status = .pendingPayment ∧ o.version = 1 ∧
    u.orders.rows = t.orders.rows ++ [o]
  items : u.items.rows = t.items.rows ++ c.items
  without : coupon = none → u.coupons = t.coupons ∧ u.redemptions = t.redemptions
  withCoupon : ∀ k ∈ coupon, (∃ k0, t.coupons.get? k.1.id = some k0 ∧ usable k.1.usedCount k0) ∧
    u.coupons.rows = t.coupons.rows.map (fun k0 =>
      if k0.id = k.1.id then { k0 with usedCount := k0.usedCount + 1 } else k0) ∧
    u.redemptions.rows = t.redemptions.rows ++ [c.redemption k]

/-! ## The lines -/

def orderCore (s : Db) := (s.orders, s.coupons, s.redemptions)

theorem lineStatements_ok {item : ShopOrderItem} (hb : batch (lineStatements c capacity item) n s = .ok (ns, s')) :
    orderCore s' = orderCore s ∧ s'.items.rows = s.items.rows ++ [item] ∧
      ∃ o ∈ s.orders.rows, o.id = item.orderId := by
  obtain ⟨n1, s1, ms1, h1, hb, -⟩ := batch_cons_ok hb
  obtain ⟨n2, s2, ms2, h2, hb, -⟩ := batch_cons_ok hb
  obtain ⟨n3, s3, ms3, h3, hb, -⟩ := batch_cons_ok hb
  obtain ⟨-, -, rfl⟩ := abortWhen_ok h1
  obtain ⟨hfk, -, rfl⟩ := abortWhen_ok h2
  obtain ⟨-, ti, hti, rfl⟩ := insert_abort_ok h3
  have hrest : (orderCore s', s'.items) = (orderCore (Db.itemsT.set s2 ti), ti) := by
    refine batch_keeps (g := fun s => (orderCore s, s.items)) (fun st hst => ?_) hb
    rcases mem_append.mp hst with hst | hst
    · split at hst
      · rw [mem_singleton.mp hst]
        exact update_off rfl
      · cases hst
    · split at hst
      · rw [mem_singleton.mp hst]
        exact insert_off rfl
      · cases hst
  rw [mk.injEq] at hrest
  refine ⟨hrest.1, ?_, ?_⟩
  · rw [hrest.2]
    exact hti
  · rw [Bool.not_eq_false', exist_iff] at hfk
    obtain ⟨o, ho, hid⟩ := hfk
    exact ⟨o, ho, by simpa using hid⟩

theorem lines_ok {items : List ShopOrderItem}
    (hb : batch (items.flatMap (lineStatements c capacity)) n s = .ok (ns, s')) :
    orderCore s' = orderCore s ∧ s'.items.rows = s.items.rows ++ items ∧
      ∀ item ∈ items, ∃ o ∈ s.orders.rows, o.id = item.orderId := by
  induction items generalizing n s ns with
  | nil =>
    obtain ⟨-, rfl⟩ := hb
    exact ⟨rfl, (append_nil _).symm, fun _ h => by cases h⟩
  | cons item items ih =>
    obtain ⟨ns1, s1, ns2, h1, h2, -⟩ := batch_append_ok hb
    obtain ⟨hc1, hi1, ho1⟩ := lineStatements_ok h1
    obtain ⟨hc2, hi2, ho2⟩ := ih h2
    refine ⟨hc2.trans hc1, ?_, fun i hi => ?_⟩
    · rw [hi2, hi1, append_assoc, singleton_append]
    · rcases mem_cons.mp hi with rfl | hi
      · exact ho1
      · have horders : s1.orders = s.orders := congrArg fst hc1
        rw [← horders]
        exact ho2 i hi

/-! ## The order and its coupon -/

theorem orderStatements_ok {coupon : Option Coupon} {t1 : Db} (hfresh : t.orders.get? c.orderId = none)
    (hb : batch (orderStatements c coupon) 0 t = .ok (ns, t1))
    (hstored : ∃ o ∈ t1.orders.rows, o.id = c.orderId) :
    t1.orders.rows = t.orders.rows ++ [c.order] ∧ t1.items = t.items ∧
      t1.redemptions = t.redemptions ∧ (coupon = none → t1.coupons = t.coupons) ∧
      ∀ k ∈ coupon, (∃ k0, t.coupons.get? k.id = some k0 ∧ usable k.usedCount k0) ∧
        t1.coupons.rows = t.coupons.rows.map (fun k0 =>
          if k0.id = k.id then { k0 with usedCount := k0.usedCount + 1 } else k0) := by
  cases coupon with
  | none =>
    obtain ⟨n1, s1, ms1, h1, hb, -⟩ := batch_cons_ok hb
    obtain ⟨-, rfl⟩ := batch_nil_ok hb
    obtain ⟨-, to', hto, rfl⟩ := insert_abort_ok h1
    exact ⟨hto, rfl, rfl, fun _ => rfl, fun _ hk => by cases hk⟩
  | some k =>
    obtain ⟨n1, s1, n2, s2, h1, h2, rfl⟩ := batch_two_ok hb
    obtain ⟨-, to', hto, rfl⟩ := insert_abort_ok (onChanges_ok h2)
    have horders : s1.orders = t.orders := Keeps.eq (update_keeps (g := Db.orders) fun _ _ => rfl) h1
    by_cases hn : n1 = 0
    · -- without the swap there is no order row
      exfalso
      obtain ⟨o, ho, hid⟩ := hstored
      have hmem : o ∈ to'.rows := ho
      rw [hto, show (Db.ordersT.get s1).rows = t.orders.rows from congrArg rows horders] at hmem
      rw [hn, if_neg (by simp), append_nil] at hmem
      rw [get?_eq_some_iff.mpr ⟨hmem, hid⟩] at hfresh
      cases hfresh
    · have hswap : (fun (_ : Db) (k0 : Coupon) => k0.id == k.id && k0.enabled &&
          k0.usedCount == k.usedCount && k0.usageLimit.all fun l => decide (k0.usedCount < l)) =
          fun _ k0 => KeyedRow.key k0 == k.id && (k0.enabled && k0.usedCount == k.usedCount &&
            k0.usageLimit.all fun l => decide (k0.usedCount < l)) := by
        funext _ k0
        simp [KeyedRow.key, Bool.and_assoc]
      rw [hswap] at h1
      obtain ⟨rfl, k0, tc, hk0, hp, htc, rfl⟩ := update_key_hit h1 hn
      simp only [Bool.and_eq_true, beq_iff_eq, Option.all_eq_true, decide_eq_true_eq] at hp
      have hexist : tc.exist (fun k' => k'.id == k.id) = true := by
        refine exist_iff.mpr ⟨_, htc ▸ mem_map_of_mem (get?_mem hk0), ?_⟩
        rw [if_pos (get?_key hk0)]
        exact beq_iff_eq.mpr (get?_key hk0)
      refine ⟨?_, rfl, rfl, (fun h => nomatch h), fun k' hk' => ?_⟩
      · show to'.rows = _
        rw [hto]
        show t.orders.rows ++ (if (1 == 1 && tc.exist fun k' => k'.id == k.id) = true then [c.order]
          else []) = _
        rw [hexist]
        simp
      · cases hk'
        exact ⟨⟨k0, hk0, hp.1.1, hp.1.2, hp.2⟩, htc⟩

theorem redemptionStatements_ok {rows : List ShopOrder} (ho : t.orders.rows = rows ++ [c.order])
    (hfresh : ∀ o ∈ rows, o.id ≠ c.orderId) (hb : batch (redemptionStatements c k.2 k.1) n t = .ok (ns, u)) :
    u.orders.rows = rows ++ [c.placed (some k)] ∧ u.items = t.items ∧ u.coupons = t.coupons ∧
      u.redemptions.rows = t.redemptions.rows ++ [c.redemption k] := by
  obtain ⟨n1, s1, ms1, h1, hb, -⟩ := batch_cons_ok hb
  obtain ⟨n2, s2, ms2, h2, hb, -⟩ := batch_cons_ok hb
  obtain ⟨-, -, rfl⟩ := abortWhen_ok h1
  obtain ⟨-, tr, htr, rfl⟩ := insert_abort_ok h2
  have hb' : batch (if k.1.purpose = .standard then [] else
      [update Db.ordersT (fun _ o => o.id == c.orderId) (fun _ o => { o with
        promotionPurpose := some k.1.purpose, referrerUserId := k.1.referrerUserId
        referralRewardMinor := c.referralRewardMinor })]) n2 (Db.redemptionsT.set s1 tr) =
      .ok (ms2, u) := hb
  split at hb'
  · rename_i hstandard
    simp only [batch_nil, Except.ok.injEq, mk.injEq] at hb'
    obtain ⟨-, rfl⟩ := hb'
    rw [Checkout.placed_standard hstandard]
    exact ⟨ho, rfl, rfl, htr⟩
  · rename_i hpromotion
    obtain ⟨n3, s3, ms3, h3, hb', -⟩ := batch_cons_ok hb'
    simp only [batch_nil, Except.ok.injEq, mk.injEq] at hb'
    obtain ⟨-, rfl⟩ := hb'
    obtain ⟨-, to', hto, rfl⟩ := update_ok h3
    refine ⟨?_, rfl, rfl, htr⟩
    rw [Checkout.placed_promotion hpromotion]
    show to'.rows = _
    rw [hto]
    show s1.orders.rows.map _ = _
    rw [ho, map_append, map_singleton, if_pos (by simp [Checkout.order])]
    congr 1
    exact (map_congr_left fun o hmem => by rw [if_neg (by simpa using hfresh o hmem)]).trans (map_id' _)

section

variable (hfresh : t.orders.get? c.orderId = none) (hb : batch (checkoutBatch c capacity coupon) 0 t = .ok (ns, u))
include hfresh hb

theorem newOrder_placed : NewOrder c coupon t u ∧ u.orders.rows = t.orders.rows ++ [c.placed coupon] := by
  unfold checkoutBatch at hb
  obtain ⟨ns1, s3, ms3, hb, hredeem, -⟩ := batch_append_ok hb
  obtain ⟨ns2, s2, ms2, hb, hevent, -⟩ := batch_append_ok hb
  obtain ⟨ns3, s1, ms1, horder, hlines, -⟩ := batch_append_ok hb
  obtain ⟨hcore, hitems, hstored⟩ := lines_ok hlines
  have hs3 : (orderCore s3, s3.items) = (orderCore s2, s2.items) := by
    refine batch_keeps (g := fun s => (orderCore s, s.items)) (fun st hst => ?_) hevent
    rw [mem_singleton.mp hst]
    exact insert_off rfl
  simp only [orderCore, mk.injEq] at hcore hs3
  obtain ⟨ho2, hk2, hr2⟩ := hcore
  obtain ⟨⟨ho3, hk3, hr3⟩, hi3⟩ := hs3
  -- there is a line, and its order is the new one
  have hexists : ∃ o ∈ s1.orders.rows, o.id = c.orderId := by
    obtain ⟨l, hl⟩ := exists_mem_of_ne_nil _ c.nonempty
    exact hstored _ (mem_map_of_mem hl)
  obtain ⟨ho1, hi1, hr1, hnone, hsome⟩ := orderStatements_ok hfresh horder hexists
  have hitems' : s3.items.rows = t.items.rows ++ c.items := by rw [hi3, hitems, hi1]
  have horders' : s3.orders.rows = t.orders.rows ++ [c.order] := by rw [ho3, ho2, ho1]
  obtain ⟨hmove, hpending, hversion⟩ := c.placed_move coupon
  cases coupon with
  | none =>
    simp only [Option.map_none, Option.getD_none, batch_nil, Except.ok.injEq, mk.injEq] at hredeem
    obtain ⟨-, rfl⟩ := hredeem
    refine ⟨⟨⟨_, hmove, hpending, hversion, horders'⟩, hitems', fun _ => ⟨?_, ?_⟩, fun _ hk => by cases hk⟩, horders'⟩
    · rw [hk3, hk2, hnone rfl]
    · rw [hr3, hr2, hr1]
  | some k =>
    obtain ⟨ho, hi, hk, hr⟩ := redemptionStatements_ok horders' (fun o ho hid => by
      rw [get?_eq_some_iff.mpr ⟨ho, hid⟩] at hfresh; cases hfresh) hredeem
    obtain ⟨huse, hcoupons⟩ := hsome k.1 rfl
    refine ⟨⟨⟨_, hmove, hpending, hversion, ho⟩, by rw [hi, hitems'], (fun h => nomatch h), fun k' hk' => ?_⟩, ho⟩
    cases hk'
    refine ⟨huse, ?_, ?_⟩
    · rw [hk, hk3, hk2, hcoupons]
    · rw [hr, hr3, hr2, hr1]

theorem newOrder : NewOrder c coupon t u :=
  (newOrder_placed hfresh hb).1

end

end Gmshop
