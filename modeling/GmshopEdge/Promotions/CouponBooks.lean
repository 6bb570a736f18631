import GmshopEdge.Orders.Statements

/-!
# The books of a coupon

A coupon's `used_count` is moved by checkout, by the triggers and batches that give a use back, and by
the late payment of an expired order, which claims a use again. `CouponBooks` relates it to the
redemptions: it is their number in status `reserved` or `consumed`. What makes the late payment exact
is the rest of the invariant: a redemption of an expired order is no longer reserved, one of an unpaid
order is not given back yet.

`CouponQuiet` is what every statement does that claims no use.
-/

namespace Gmshop

open List Sql Stmt Prog Table Bool

/-! ## The books -/

def couponUses (s : Db) (couponId : Id) : Nat :=
  s.redemptions.count fun cr => cr.couponId == couponId && cr.status.inUse

/-- What the status of a redemption says of its order; `x` is an order about to give its use back. -/
def RedemptionFits (x : Option Id) (o : ShopOrder) (st : RedemptionStatus) : Prop :=
  (o.status = .pendingPayment → st ≠ .released) ∧ (o.status = .expired → st ≠ .reserved ∨ x = some o.id)

instance (x : Option Id) (o : ShopOrder) (st : RedemptionStatus) : Decidable (RedemptionFits x o st) :=
  inferInstanceAs (Decidable (_ ∧ _))

/-- The counter of every coupon is right and within the coupon's limit. -/
def CouponsCounted (s : Db) : Prop :=
  ∀ k ∈ s.coupons.rows, k.usedCount = couponUses s k.id ∧ ∀ l ∈ k.usageLimit, k.usedCount ≤ l

instance (s : Db) : Decidable (CouponsCounted s) := by
  unfold CouponsCounted
  infer_instance

structure CouponBooks (x : Option Id) (s : Db) : Prop where
  counted : CouponsCounted s
  owned : ∀ cr ∈ s.redemptions.rows, (∃ k ∈ s.coupons.rows, k.id = cr.couponId) ∧
    ∃ o ∈ s.orders.rows, o.id = cr.orderId ∧ RedemptionFits x o cr.status

instance (x : Option Id) (s : Db) : Decidable (CouponBooks x s) :=
  decidable_of_iff (CouponsCounted s ∧ ∀ cr ∈ s.redemptions.rows, (∃ k ∈ s.coupons.rows, k.id = cr.couponId) ∧
      ∃ o ∈ s.orders.rows, o.id = cr.orderId ∧ RedemptionFits x o cr.status)
    ⟨fun h => ⟨h.1, h.2⟩, fun h => ⟨h.1, h.2⟩⟩

variable {s s' t : Db} {r r' : CouponRedemption} {x : Option Id} {st : Stmt Db} {new old : ShopOrder}

theorem CouponBooks.weaken (h : CouponBooks none s) (x : Option Id) : CouponBooks x s := by
  refine ⟨h.counted, fun cr hcr => ?_⟩
  obtain ⟨hk, o, ho, hid, hfit⟩ := h.owned cr hcr
  refine ⟨hk, o, ho, hid, hfit.1, fun hexp => Or.inl ?_⟩
  rcases hfit.2 hexp with hne | hx
  · exact hne
  · cases hx

/-- What no statement changes of a redemption; one in use is only given back once. -/
structure RedemptionMove (r r' : CouponRedemption) : Prop where
  id : r'.id = r.id
  couponId : r'.couponId = r.couponId
  orderId : r'.orderId = r.orderId
  userId : r'.userId = r.userId
  email : r'.normalizedEmail = r.normalizedEmail
  consumed : r.status = .consumed → r'.status = .consumed
  released : r.status = .released → r'.status = .released

theorem RedemptionMove.refl (r : CouponRedemption) : RedemptionMove r r :=
  ⟨rfl, rfl, rfl, rfl, rfl, fun h => h, fun h => h⟩

theorem RedemptionMove.trans {a b c : CouponRedemption} (h : RedemptionMove a b)
    (h' : RedemptionMove b c) : RedemptionMove a c :=
  ⟨h'.id.trans h.id, h'.couponId.trans h.couponId, h'.orderId.trans h.orderId,
    h'.userId.trans h.userId, h'.email.trans h.email, fun hc => h'.consumed (h.consumed hc),
    fun hc => h'.released (h.released hc)⟩

theorem RedemptionMove.of_reserved (h : r.status = .reserved) (st : RedemptionStatus) :
    RedemptionMove r { r with status := st } :=
  ⟨rfl, rfl, rfl, rfl, rfl, fun hc => (by rw [h] at hc; cases hc), fun hc => (by rw [h] at hc; cases hc)⟩

theorem RedemptionMove.inUse (h : RedemptionMove r r') (hu : r'.status.inUse = true) : r.status.inUse = true := by
  cases hs : r.status with
  | released =>
    rw [h.released hs] at hu
    cases hu
  | reserved => rfl
  | consumed => rfl

structure CouponMove (k k' : Coupon) : Prop where
  id : k'.id = k.id
  usageLimit : k'.usageLimit = k.usageLimit
  usageLimitPerCustomer : k'.usageLimitPerCustomer = k.usageLimitPerCustomer
  purpose : k'.purpose = k.purpose

theorem CouponMove.refl (k : Coupon) : CouponMove k k := ⟨rfl, rfl, rfl, rfl⟩

theorem CouponMove.trans {a b c : Coupon} (h : CouponMove a b) (h' : CouponMove b c) : CouponMove a c :=
  ⟨h'.id.trans h.id, h'.usageLimit.trans h.usageLimit,
    h'.usageLimitPerCustomer.trans h.usageLimitPerCustomer, h'.purpose.trans h.purpose⟩

/-- A step that claims no use: coupons and redemptions are rewritten in place, and the books that were
right, but for the order `x`, are so again. -/
structure CouponQuiet (x : Option Id) (s t : Db) : Prop where
  coupons : ∃ g, t.coupons.rows = s.coupons.rows.map g ∧ ∀ k, CouponMove k (g k)
  redemptions : ∃ g, t.redemptions.rows = s.redemptions.rows.map g ∧ ∀ r, RedemptionMove r (g r)
  books : CouponBooks x s → CouponBooks x t

theorem CouponQuiet.refl (x : Option Id) (s : Db) : CouponQuiet x s s :=
  ⟨⟨id, (map_id _).symm, .refl⟩, ⟨id, (map_id _).symm, .refl⟩, id⟩

theorem CouponQuiet.trans {u : Db} (h : CouponQuiet x s t) (h' : CouponQuiet x t u) : CouponQuiet x s u := by
  obtain ⟨g, hg, hgm⟩ := h.coupons
  obtain ⟨g', hg', hgm'⟩ := h'.coupons
  obtain ⟨f, hf, hfm⟩ := h.redemptions
  obtain ⟨f', hf', hfm'⟩ := h'.redemptions
  refine ⟨⟨g' ∘ g, ?_, fun k => (hgm k).trans (hgm' _)⟩,
    ⟨f' ∘ f, ?_, fun r => (hfm r).trans (hfm' _)⟩, fun hb => h'.books (h.books hb)⟩
  · rw [hg', hg, map_map]
  · rw [hf', hf, map_map]

theorem keeps_couponQuiet (h : Keeps (fun s => (s.orders, s.coupons, s.redemptions)) st) :
    Within (CouponQuiet x) st := by
  intro c s n s' hs
  have hk := h c s n s' hs
  simp only [Prod.mk.injEq] at hk
  refine ⟨⟨id, by rw [hk.2.1, map_id], .refl⟩, ⟨id, by rw [hk.2.2, map_id], .refl⟩, fun hb => ⟨?_, ?_⟩⟩
  · have := hb.counted
    unfold CouponsCounted couponUses at this ⊢
    rw [hk.2.1, hk.2.2]
    exact this
  · rw [hk.1, hk.2.1, hk.2.2]
    exact hb.owned

/-! ## Giving uses back -/

theorem redemption_unique (hr : r ∈ s.redemptions.rows) (hr' : r' ∈ s.redemptions.rows)
    (h : r.orderId = r'.orderId) : r = r' :=
  eq_of_clash hr hr' (by simp [Row.clash, h]) (by simp [Row.clash, h])

theorem release_quiet (orderId : Id) {rel : CouponRedemption → Bool} {hit : Coupon → Bool}
    (hrel : ∀ r, rel r = true → r.orderId = orderId ∧ r.status = .reserved)
    (hhit : ∀ k ∈ s.coupons.rows, hit k = true ↔
      ∃ r ∈ s.redemptions.rows, rel r = true ∧ r.couponId = k.id) (ho : t.orders = s.orders)
    (hc : t.coupons.rows = s.coupons.rows.map fun k =>
      if hit k then { k with usedCount := k.usedCount - 1 } else k)
    (hr : t.redemptions.rows = s.redemptions.rows.map fun r =>
      if rel r then { r with status := .released } else r)
    (hleft : ∀ r, rel r = true → ∀ o, s.orders.get? orderId = some o → o.status ≠ .pendingPayment) :
    CouponQuiet x s t := by
  have hmove : ∀ r, RedemptionMove r (if rel r then { r with status := .released } else r) := by
    intro r
    split
    · next h => exact .of_reserved (hrel r h).2 _
    · exact .refl r
  refine ⟨⟨_, hc, fun k => ?_⟩, ⟨_, hr, hmove⟩, fun hb => ⟨fun k' hk' => ?_, fun cr hcr => ?_⟩⟩
  · split
    · exact ⟨rfl, rfl, rfl, rfl⟩
    · exact .refl k
  · -- the counter and the number of uses fall together
    rw [hc] at hk'
    obtain ⟨k, hk, rfl⟩ := mem_map.mp hk'
    obtain ⟨hcount, hlimit⟩ := hb.counted k hk
    by_cases hh : hit k = true
    · obtain ⟨r, hrm, hrr, hrk⟩ := (hhit k hk).mp hh
      obtain ⟨hro, hrs⟩ := hrel r hrr
      have hfall : couponUses t k.id + 1 = couponUses s k.id := by
        have hmoved := count_map_single (p := fun cr => cr.couponId == k.id && cr.status.inUse)
          hr hrm fun y hy hne => by
            rw [if_neg fun hy' => hne (congrArg CouponRedemption.id
              (redemption_unique hy hrm ((hrel y hy').1.trans hro.symm)))]
        simpa [couponUses, hrr, hrs, hrk, RedemptionStatus.inUse] using hmoved
      rw [if_pos hh]
      refine ⟨?_, fun l hl => ?_⟩
      · show k.usedCount - 1 = couponUses t k.id
        omega
      · have := hlimit l hl
        show k.usedCount - 1 ≤ l
        omega
    · have hsame : couponUses t k.id = couponUses s k.id := by
        refine count_eq_of_map hr fun r hrm => ?_
        split
        · next hrr =>
          have hne : r.couponId ≠ k.id := fun hrk => hh ((hhit k hk).mpr ⟨r, hrm, hrr, hrk⟩)
          simp only [beq_eq_false_iff_ne.mpr hne, Bool.false_and]
        · rfl
      rw [if_neg hh]
      exact ⟨hcount.trans hsame.symm, hlimit⟩
  · rw [hr] at hcr
    obtain ⟨r, hrm, rfl⟩ := mem_map.mp hcr
    obtain ⟨⟨k, hk, hkid⟩, o, hom, hoid, hfit⟩ := hb.owned r hrm
    refine ⟨?_, o, by rw [ho]; exact hom, hoid.trans (hmove r).orderId.symm, ?_⟩
    · refine ⟨_, hc ▸ mem_map_of_mem hk, ?_⟩
      rw [(hmove r).couponId, ← hkid]
      split <;> rfl
    · by_cases hrr : rel r = true
      · rw [if_pos hrr]
        have hne : o.status ≠ .pendingPayment := by
          refine hleft r hrr o (get?_eq_some_iff.mpr ⟨hom, ?_⟩)
          exact hoid.trans (hrel r hrr).1
        exact ⟨fun hp => absurd hp hne, fun _ => Or.inl (by simp)⟩
      · rw [if_neg hrr]
        exact hfit

/-! ## Statements that claim no use -/

theorem promotionCouponRelease_quiet {c : Nat} {ns : List Nat}
    (hleft : ∀ o, s.orders.get? new.id = some o → o.status ≠ .pendingPayment)
    (h : batch (promotionCouponRelease old new) c s = .ok (ns, s')) : CouponQuiet x s s' := by
  unfold promotionCouponRelease at h
  split at h
  · obtain ⟨n1, s1, n2, s2, h1, h2, rfl⟩ := batch_two_ok h
    obtain ⟨-, tc, hc, rfl⟩ := update_ok h1
    obtain ⟨-, tr, hr, rfl⟩ := update_ok h2
    refine release_quiet new.id (fun r hrel => ?_) (fun k hk => ?_) rfl hc hr fun _ _ => hleft
    · simp only [and_eq_true, beq_iff_eq] at hrel
      exact hrel.1
    · have hstored : ∃ k' ∈ tc.rows, k'.id = k.id ∧ k'.purpose = k.purpose := by
        refine ⟨_, hc ▸ mem_map_of_mem hk, ?_⟩
        split <;> exact ⟨rfl, rfl⟩
      simp only [and_eq_true, exist_iff, beq_iff_eq]
      constructor
      · rintro ⟨hpromo, r, hrm, ⟨hro, hrs⟩, hrk⟩
        obtain ⟨k', hk', hid, hpur⟩ := hstored
        refine ⟨r, hrm, ⟨⟨hro, hrs⟩, k', hk', hid.trans hrk.symm, ?_⟩, hrk⟩
        unfold promotional at hpromo ⊢
        rw [hpur]
        exact hpromo
      · rintro ⟨r, hrm, ⟨⟨hro, hrs⟩, k', hk', hid, hpromo⟩, hrk⟩
        have hkt : k' ∈ tc.rows := hk'
        rw [hc] at hkt
        obtain ⟨j, hj, rfl⟩ := mem_map.mp hkt
        have hjk : j = k := eq_of_key hj hk (by
          show j.id = k.id
          rw [← hrk, ← hid]
          split <;> rfl)
        subst hjk
        refine ⟨?_, r, hrm, ⟨hro, hrs⟩, hrk⟩
        unfold promotional at hpromo ⊢
        split at hpromo <;> exact hpromo
  · simp only [batch_nil, Except.ok.injEq, Prod.mk.injEq] at h
    exact h.2 ▸ .refl x s

theorem orderRow_quiet (hid : new.id = old.id) (hleft : new.status ≠ .pendingPayment)
    (hx : new.status = .expired → x = some new.id) (h : updateRow Db.ordersT orderPaidGuards
      (fun old new => promotionCouponRelease old new ++ orderBalanceLifecycle old new) old new s =
        .ok s') : CouponQuiet x s s' := by
  obtain ⟨ns1, s1, n, s2, ns2, e1, e2, e3⟩ := updateRow_ok h
  have hs1 : s1 = s := batch_keeps (g := fun s => s) (orderPaidGuards_keeps _ old new) e1
  subst hs1
  obtain ⟨-, t, ht, rfl⟩ := update_ok e2
  obtain ⟨ms1, s3, ms2, e3, e4, -⟩ := batch_append_ok e3
  have hrow : CouponQuiet x s1 (Db.ordersT.set s1 t) := by
    refine ⟨⟨id, (map_id _).symm, .refl⟩, ⟨id, (map_id _).symm, .refl⟩,
      fun hb => ⟨hb.counted, fun cr hcr => ?_⟩⟩
    obtain ⟨hk, o, ho, hoid, hfit⟩ := hb.owned cr hcr
    refine ⟨hk, _, ht ▸ mem_map_of_mem ho, ?_⟩
    by_cases hoo : o.id = old.id
    · rw [if_pos (by simpa [KeyedRow.key] using hoo)]
      exact ⟨(hid.trans hoo.symm).trans hoid, fun hp => absurd hp hleft, fun he => Or.inr (hx he)⟩
    · rw [if_neg (by simpa [KeyedRow.key] using hoo)]
      exact ⟨hoid, hfit⟩
  have hnew : ∀ o, (Db.ordersT.set s1 t).orders.get? new.id = some o → o.status ≠ .pendingPayment := by
    intro o ho
    obtain ⟨hm, hk⟩ := get?_eq_some_iff.mp ho
    have hmt : o ∈ t.rows := hm
    rw [ht] at hmt
    obtain ⟨o', -, rfl⟩ := mem_map.mp hmt
    by_cases hoo : (KeyedRow.key o' == KeyedRow.key old) = true
    · rw [if_pos hoo]
      exact hleft
    · rw [if_neg hoo] at hk
      exact absurd (hk.trans hid) (by simpa [KeyedRow.key] using hoo)
  refine (hrow.trans (promotionCouponRelease_quiet hnew e3)).trans ?_
  refine batch_within (.refl x) (fun _ _ _ => .trans) (fun st hst => keeps_couponQuiet ?_) e4
  exact orderBalanceLifecycle_keeps (by constructor <;> exact fun _ _ => rfl) old new st hst

theorem updateOrders_quiet {p : Db → ShopOrder → Bool} {f : Db → ShopOrder → ShopOrder}
    (hf : ∀ s o, (f s o).id = o.id) (hs : ∀ s o, p s o = true → (f s o).status ≠ .pendingPayment ∧
      ((f s o).status = .expired → x = some o.id)) : Within (CouponQuiet x) (updateOrders p f) := by
  intro c s n s' h
  refine updateRows_each (.refl x) (fun _ _ _ => .trans) (fun r hr s1 s2 h1 => ?_) (updateEach_ok h).2
  obtain ⟨hleft, hexp⟩ := hs s r (mem_filter.mp hr).2
  exact orderRow_quiet (hf s r) hleft (fun he => by rw [hf]; exact hexp he) h1

theorem updateAttempts_couponQuiet {p : Db → PaymentAttempt → Bool} {f : Db → PaymentAttempt → PaymentAttempt} :
    Within (CouponQuiet x) (updateAttempts p f) := by
  refine updateEach_within (.refl x) (fun _ _ _ => .trans) (fun _ _ _ => forall_mem_nil _)
    (fun _ _ => keeps_couponQuiet (update_off rfl)) fun _ _ _ => each_if fun _ => each_two ?_ ?_
  · exact keeps_couponQuiet (updateHolds_keeps (by constructor <;> exact fun _ _ => rfl))
  · exact updateOrders_quiet (fun _ _ => rfl) fun _ _ _ => ⟨by simp, by simp⟩

theorem consumeReserved_quiet (orderId : Id) :
    Within (CouponQuiet x) (consumeRedemptionStatement orderId (· == .reserved)) := by
  intro c s n s' h
  obtain ⟨-, t, ht, rfl⟩ := update_ok h
  refine ⟨⟨id, (map_id _).symm, .refl⟩, ⟨_, ht, fun r => ?_⟩, fun hb => ⟨fun k hk => ?_, ?_⟩⟩
  · split
    · next hp => exact .of_reserved (by simpa using (and_eq_true_iff.mp hp).2) _
    · exact .refl r
  · obtain ⟨hcount, hlimit⟩ := hb.counted k hk
    refine ⟨hcount.trans (Eq.symm (count_eq_of_map ht fun r _ => ?_)), hlimit⟩
    split
    · next hp =>
      have hres : r.status = .reserved := by simpa using (and_eq_true_iff.mp hp).2
      simp [hres, RedemptionStatus.inUse]
    · rfl
  · intro cr hcr
    have hcrt : cr ∈ t.rows := hcr
    rw [ht] at hcrt
    obtain ⟨r, hr, rfl⟩ := mem_map.mp hcrt
    obtain ⟨hk, o, ho, hoid, hfit⟩ := hb.owned r hr
    split
    · exact ⟨hk, o, ho, hoid, by simp, by simp⟩
    · exact ⟨hk, o, ho, hoid, hfit⟩

theorem SideStmt.couponQuiet {money : Prop} (h : SideStmt money st) : Within (CouponQuiet x) st := by
  rcases h with h | h
  · exact keeps_couponQuiet (h.keeps (by constructor; constructor; all_goals exact fun _ _ => rfl))
  · exact h.within (fun _ => keeps_couponQuiet) (fun _ _ => updateAttempts_couponQuiet) fun _ _ => rfl

end Gmshop
