import GmshopEdge.Db.Schema

/-!
# Statements on tables with triggers

An UPDATE that sets `shop_orders.status` runs the promotion triggers of migrations 0028, 0029, 0030
and 0036, an UPDATE of `order_balance_holds.state` credits the released reserve, a payment attempt
that fails releases the reserve and cancels its order, and a refund that becomes `succeeded` moves
the balance part of the refund. `updateOrders`, `updateHolds`, `updateAttempts`, `updateRefunds`
and `insertRefund` are those statements; everything else writes these tables through them.
-/

namespace Gmshop

open List Sql Stmt

/-! ## Balance holds -/

/-- `order_balance_hold_immutable`: a hold only moves from `held` to `consumed` or `released`. -/
def orderBalanceHoldImmutable (old new : OrderBalanceHold) : List (Stmt Db) :=
  [abortWhen (fun _ _ => new.orderId != old.orderId || new.userId != old.userId ||
      new.cashMinor != old.cashMinor || new.rewardMinor != old.rewardMinor ||
      new.externalMinor != old.externalMinor ||
      (new.state != old.state && (old.state != .held || new.state == .held)))
    "wallet_hold_immutable"]

/-- `order_balance_hold_release`: a released hold returns its cash and its reward. -/
def orderBalanceHoldRelease (old new : OrderBalanceHold) : List (Stmt Db) :=
  if old.state = .held ∧ new.state = .released then [insert Db.walletEntriesT .abort (fun s =>
        if 0 < new.cashMinor then (s.users.rows.filter (fun u => u.id == new.userId)).map fun u =>
            { userId := u.id, direction := .credit, amountMinor := new.cashMinor
              balanceBeforeMinor := u.balanceMinor
              balanceAfterMinor := u.balanceMinor + new.cashMinor
              sourceType := .adjustment, sourceId := new.orderId
              idempotencyKey := .balanceRelease new.orderId }
        else []),
      update Db.usersT (fun _ u => u.id == new.userId) (fun _ u =>
        { u with
          balanceMinor := u.balanceMinor + new.cashMinor
          rewardBalanceMinor := u.rewardBalanceMinor + new.rewardMinor
          balanceVersion := u.balanceVersion + 1 }),
      insert Db.rewardEntriesT .abort (fun s =>
        if 0 < new.rewardMinor then (s.users.rows.filter (fun u => u.id == new.userId)).map fun u =>
            { userId := u.id, deltaMinor := new.rewardMinor
              balanceAfterMinor := u.rewardBalanceMinor, idempotencyKey := .release new.orderId }
        else [])]
  else []

/-- `UPDATE order_balance_holds SET state = …`. -/
def updateHolds (p : Db → OrderBalanceHold → Bool) (f : Db → OrderBalanceHold → OrderBalanceHold) : Stmt Db :=
  updateEach Db.holdsT orderBalanceHoldImmutable orderBalanceHoldRelease p f

/-- `order_balance_hold_validate`: the reserve fits its order and its user, and no payment was started. -/
def orderBalanceHoldValidate (createdAt : Time) (new : OrderBalanceHold) : List (Stmt Db) :=
  [abortWhen (fun _ s => !(new.state == .held && s.orders.exist fun o =>
      o.id == new.orderId && o.userId == some new.userId && o.status == .pendingPayment &&
        o.currency == cny && o.currencyDecimals == 2 && decide (createdAt < o.expiresAt) &&
        (s.users.exist fun u => u.id == new.userId && u.enabled &&
          decide ((new.cashMinor : Int) ≤ u.balanceMinor) &&
          decide ((new.rewardMinor : Int) ≤ max 0 u.rewardBalanceMinor)) &&
        new.cashMinor + new.rewardMinor + new.externalMinor == o.totalMinor &&
        !(s.attempts.exist fun a => a.orderId == some o.id))) "wallet_hold_conflict"]

/-- `order_balance_hold_debit`: a new hold takes its cash and its reward. -/
def orderBalanceHoldDebit (new : OrderBalanceHold) : List (Stmt Db) :=
  [insert Db.walletEntriesT .abort (fun s =>
      if 0 < new.cashMinor then (s.users.rows.filter (fun u => u.id == new.userId)).map fun u =>
          { userId := u.id, direction := .debit, amountMinor := new.cashMinor
            balanceBeforeMinor := u.balanceMinor
            balanceAfterMinor := u.balanceMinor - new.cashMinor
            sourceType := .shopOrder, sourceId := new.orderId
            idempotencyKey := .balanceHold new.orderId }
      else []),
    update Db.usersT (fun _ u => u.id == new.userId) (fun _ u =>
      { u with
        balanceMinor := u.balanceMinor - new.cashMinor
        rewardBalanceMinor := u.rewardBalanceMinor - new.rewardMinor
        balanceVersion := u.balanceVersion + 1 }),
    insert Db.rewardEntriesT .abort (fun s =>
      if 0 < new.rewardMinor then (s.users.rows.filter (fun u => u.id == new.userId)).map fun u =>
          { userId := u.id, deltaMinor := -new.rewardMinor
            balanceAfterMinor := u.rewardBalanceMinor, idempotencyKey := .hold new.orderId }
      else [])]

/-- `INSERT INTO order_balance_holds VALUES …`. -/
def insertHold (createdAt : Time) (hold : OrderBalanceHold) : List (Stmt Db) :=
  orderBalanceHoldValidate createdAt hold ++ [insert Db.holdsT .abort fun _ => [hold]] ++ orderBalanceHoldDebit hold

/-! ## Orders -/

/-- The guards before an order becomes paid: `order_balance_paid_guard`,
`personal_coupon_late_payment_guard` and `mixed_payment_receipt_guard`. -/
def orderPaidGuards (old new : ShopOrder) : List (Stmt Db) :=
  if new.status = .paid ∧ old.status ≠ .paid then
    [abortWhen (fun _ s => s.holds.exist fun h => h.orderId == new.id && h.state == .released)
        "payment_reconciliation_required",
      abortWhen (fun _ s => s.redemptions.exist fun cr =>
          cr.orderId == new.id && cr.status == .released &&
            s.coupons.exist fun c => c.id == cr.couponId && c.purpose == .recall)
        "payment_reconciliation_required",
      abortWhen (fun _ s =>
          (s.holds.exist fun h =>
            h.orderId == new.id && h.state == .held && decide (0 < h.externalMinor)) &&
          !(s.attempts.exist fun a => a.orderId == some new.id && a.status == .succeeded))
        "external_payment_required"]
  else []

/-- A promotional coupon is one whose use the promotion triggers take back. -/
def promotional (c : Coupon) : Bool := c.purpose == .referral || c.purpose == .recall

def promotionCouponRelease (old new : ShopOrder) : List (Stmt Db) :=
  if old.status = .pendingPayment ∧ (new.status = .cancelled ∨ new.status = .expired) then
    [update Db.couponsT (fun s c => promotional c && s.redemptions.exist fun cr =>
          cr.orderId == new.id && cr.status == .reserved && cr.couponId == c.id)
        (fun _ c => { c with usedCount := c.usedCount - 1 }),
      update Db.redemptionsT (fun s cr => cr.orderId == new.id && cr.status == .reserved &&
          s.coupons.exist fun c => c.id == cr.couponId && promotional c)
        (fun _ cr => { cr with status := .released })]
  else []

def nextBeijingDay (t : Time) : Time := ((t + 28800000) / 86400000 + 1) * 86400000 - 28800000

def orderBalanceLifecycle (_old new : ShopOrder) : List (Stmt Db) :=
  [updateHolds (fun _ h => h.orderId == new.id && h.state == .held &&
        (new.status == .paid || new.status == .cancelled || new.status == .expired))
      (fun _ h => { h with state := if new.status = .paid then .consumed else .released }),
    insert Db.rewardsT .doNothing (fun _ =>
      if new.status = .paid ∧ new.promotionPurpose = some .referral ∧ 0 < new.referralRewardMinor then
        [{ orderId := new.id, userId := new.referrerUserId, amountMinor := new.referralRewardMinor
           remainingMinor := new.referralRewardMinor }]
      else []),
    update Db.rewardsT (fun _ r => r.orderId == new.id && new.status == .completed) (fun _ r => { r with
        availableAt := some (r.availableAt.getD (nextBeijingDay new.updatedAt)) })]

/-- `UPDATE shop_orders SET status = …`. -/
def updateOrders (p : Db → ShopOrder → Bool) (f : Db → ShopOrder → ShopOrder) : Stmt Db :=
  updateEach Db.ordersT orderPaidGuards
    (fun old new => promotionCouponRelease old new ++ orderBalanceLifecycle old new) p f

/-! ## Payment attempts -/

/-- `mixed_payment_failure_release`: a failed attempt releases the reserve and cancels the order
that waited for it. -/
def mixedPaymentFailureRelease (old new : PaymentAttempt) : List (Stmt Db) :=
  if (new.status = .failed ∨ new.status = .expired) ∧ (old.status = .created ∨ old.status = .pending) then
    [updateHolds (fun _ h => some h.orderId == new.orderId && h.state == .held)
        (fun _ h => { h with state := .released }),
      updateOrders (fun s o => some o.id == new.orderId && o.status == .pendingPayment &&
          s.holds.exist fun h => h.orderId == o.id && h.state == .released)
        (fun _ o => { o with
          status := .cancelled, updatedAt := new.updatedAt, version := o.version + 1 })]
  else []

/-- `UPDATE payment_attempts SET status = …`. -/
def updateAttempts (p : Db → PaymentAttempt → Bool) (f : Db → PaymentAttempt → PaymentAttempt) : Stmt Db :=
  updateEach Db.attemptsT (fun _ _ => []) mixedPaymentFailureRelease p f

/-- `payment_funding_snapshot_guard` and `mixed_payment_single_attempt_guard`: a payment of a
reserved order is for what the reserve leaves open, and there is one at a time. -/
def attemptGuards (new : PaymentAttempt) : List (Stmt Db) :=
  [abortWhen (fun _ s => s.holds.exist fun h => some h.orderId == new.orderId &&
      (h.state != .held || new.orderAmountMinor != some h.externalMinor)) "payment_funding_changed",
    abortWhen (fun _ s => (s.holds.exist fun h => some h.orderId == new.orderId) &&
      s.attempts.exist fun a => a.orderId == new.orderId && a.idempotencyKey != new.idempotencyKey &&
        (a.status == .created || a.status == .pending || a.status == .succeeded))
      "payment_attempt_already_active"]

/-! ## Deliveries -/

/-- The configured SKU of an item: that of its order, else that of its component. -/
def redeemRoute (s : Db) (orderItemId : Id) : Option Nat := do
  let i ← s.items.get? orderItemId
  let find (orderId : Option Id) : Option RedeemRoute := s.redeemRoutes.rows.find? fun r =>
    r.componentId == i.deliveryComponentId && r.orderId == orderId && r.sku.isSome
  let r ← (find (some i.orderId)).orElse fun _ => find none
  r.sku

def deliveryRedeemRouteSnapshot (new : DeliveryRecord) : List (Stmt Db) :=
  if new.deliveryType = .stock then [update Db.deliveriesT (fun _ d => d.id == new.id)
      (fun s d => { d with redeemSku := redeemRoute s new.orderItemId })]
  else []

/-- `INSERT INTO delivery_records SELECT …`. -/
def insertDelivery (g : Db → List DeliveryRecord) : Stmt Db :=
  insertEach Db.deliveriesT deliveryRedeemRouteSnapshot g

/-! ## Refunds -/

def refundUsers (r : Refund) (s : Db) : List User :=
  s.users.rows.filter fun u =>
    s.orders.exist fun o => o.id == r.orderId && o.userId == some u.id

/-- The body shared by `promotion_refund_insert` and `promotion_refund_update`: the balance part of
the refund returns to the customer, the referral reward it invalidates is taken back. -/
def promotionRefund (r : Refund) : List (Stmt Db) :=
  [insert Db.walletEntriesT .abort (fun s =>
      if 0 < r.cashReturnMinor then (refundUsers r s).map fun u =>
          { userId := u.id, direction := .credit, amountMinor := r.cashReturnMinor
            balanceBeforeMinor := u.balanceMinor
            balanceAfterMinor := u.balanceMinor + r.cashReturnMinor
            sourceType := .refund, sourceId := r.id, idempotencyKey := .balanceRefund r.id }
      else []),
    update Db.usersT (fun s u => (s.orders.exist fun o => o.id == r.orderId && o.userId == some u.id)
        && (decide (0 < r.cashReturnMinor) || decide (0 < r.rewardReturnMinor)))
      (fun _ u => { u with
        balanceMinor := u.balanceMinor + r.cashReturnMinor
        rewardBalanceMinor := u.rewardBalanceMinor + r.rewardReturnMinor
        balanceVersion := u.balanceVersion + 1 }),
    insert Db.rewardEntriesT .abort (fun s =>
      if 0 < r.rewardReturnMinor then (refundUsers r s).map fun u =>
          { userId := u.id, deltaMinor := r.rewardReturnMinor
            balanceAfterMinor := u.rewardBalanceMinor, idempotencyKey := .refund r.id }
      else []),
    update Db.usersT (fun s u => decide (0 < r.referralReversalMinor) && s.rewards.exist fun w =>
          w.orderId == r.orderId && w.state == .available && w.userId == some u.id)
      (fun _ u => { u with rewardBalanceMinor := u.rewardBalanceMinor - r.referralReversalMinor }),
    insert Db.rewardEntriesT .abort (fun s =>
      if 0 < r.referralReversalMinor then (s.users.rows.filter fun u => s.rewards.exist fun w =>
            w.orderId == r.orderId && w.state == .available && w.userId == some u.id).map fun u =>
          { userId := u.id, deltaMinor := -r.referralReversalMinor
            balanceAfterMinor := u.rewardBalanceMinor, idempotencyKey := .reversal r.id }
      else []),
    update Db.rewardsT (fun _ w => w.orderId == r.orderId && decide (0 < r.referralReversalMinor))
      (fun _ w => { w with
        remainingMinor := max 0 (w.remainingMinor - r.referralReversalMinor)
        state := if w.remainingMinor ≤ r.referralReversalMinor then .reversed else w.state })]

/-- `UPDATE refunds SET status = …` (`promotion_refund_update`). -/
def updateRefunds (p : Db → Refund → Bool) (f : Db → Refund → Refund) : Stmt Db :=
  updateEach Db.refundsT (fun _ _ => []) (fun old new =>
      if new.status = .succeeded ∧ old.status ≠ .succeeded then promotionRefund new else []) p f

/-- `INSERT INTO refunds SELECT …` (`promotion_refund_insert`). -/
def insertRefund (g : Db → List Refund) : Stmt Db :=
  insertEach Db.refundsT (fun r => if r.status = .succeeded then promotionRefund r else []) g

/-! ## What the triggered statements leave alone -/

/-- A component of the database that none of the promotion tables is part of. -/
structure OffPromotion {γ : Type} (g : Db → γ) : Prop where
  users : ∀ s t, g (Db.usersT.set s t) = g s
  walletEntries : ∀ s t, g (Db.walletEntriesT.set s t) = g s
  holds : ∀ s t, g (Db.holdsT.set s t) = g s
  rewards : ∀ s t, g (Db.rewardsT.set s t) = g s
  rewardEntries : ∀ s t, g (Db.rewardEntriesT.set s t) = g s
  coupons : ∀ s t, g (Db.couponsT.set s t) = g s
  redemptions : ∀ s t, g (Db.redemptionsT.set s t) = g s

structure OffWallet {γ : Type} (g : Db → γ) : Prop where
  users : ∀ s t, g (Db.usersT.set s t) = g s
  walletEntries : ∀ s t, g (Db.walletEntriesT.set s t) = g s
  holds : ∀ s t, g (Db.holdsT.set s t) = g s
  rewards : ∀ s t, g (Db.rewardsT.set s t) = g s
  rewardEntries : ∀ s t, g (Db.rewardEntriesT.set s t) = g s

variable {p : Db → ShopOrder → Bool} {f : Db → ShopOrder → ShopOrder} {c n : Nat} {s s' : Db}

section Frame

variable {γ : Type} {g : Db → γ}

theorem OffPromotion.wallet (hg : OffPromotion g) : OffWallet g :=
  ⟨hg.users, hg.walletEntries, hg.holds, hg.rewards, hg.rewardEntries⟩

theorem orderBalanceHoldRelease_keeps (hg : OffWallet g) (old new : OrderBalanceHold) :
    ∀ st ∈ orderBalanceHoldRelease old new, Keeps g st :=
  each_if fun _ =>
    each_three (insert_keeps hg.walletEntries) (update_keeps hg.users) (insert_keeps hg.rewardEntries)

theorem updateHolds_keeps {p : Db → OrderBalanceHold → Bool} {f : Db → OrderBalanceHold → OrderBalanceHold}
    (hg : OffWallet g) : Keeps g (updateHolds p f) :=
  updateEach_keeps hg.holds (fun _ _ => forall_mem_singleton.mpr abortWhen_keeps)
    (orderBalanceHoldRelease_keeps hg)

theorem orderPaidGuards_keeps (g : Db → γ) (old new : ShopOrder) : ∀ st ∈ orderPaidGuards old new, Keeps g st :=
  each_if fun _ => each_three abortWhen_keeps abortWhen_keeps abortWhen_keeps

theorem promotionCouponRelease_keeps (hg : OffPromotion g) (old new : ShopOrder) :
    ∀ st ∈ promotionCouponRelease old new, Keeps g st :=
  each_if fun _ => each_two (update_keeps hg.coupons) (update_keeps hg.redemptions)

theorem orderBalanceLifecycle_keeps (hg : OffWallet g) (old new : ShopOrder) :
    ∀ st ∈ orderBalanceLifecycle old new, Keeps g st :=
  each_three (updateHolds_keeps hg) (insert_keeps hg.rewards) (update_keeps hg.rewards)

theorem orderTriggers_keep (hg : OffPromotion g) (old new : ShopOrder) :
    ∀ st ∈ promotionCouponRelease old new ++ orderBalanceLifecycle old new, Keeps g st :=
  each_append (promotionCouponRelease_keeps hg old new) (orderBalanceLifecycle_keeps hg.wallet old new)

theorem updateOrders_keeps (hg : OffPromotion g)
    (ho : ∀ s t, g (Db.ordersT.set s t) = g s) : Keeps g (updateOrders p f) :=
  updateEach_keeps ho (orderPaidGuards_keeps g) (orderTriggers_keep hg)

theorem promotionRefund_keeps (hg : OffPromotion g) (r : Refund) : ∀ st ∈ promotionRefund r, Keeps g st :=
  each_six (insert_keeps hg.walletEntries) (update_keeps hg.users) (insert_keeps hg.rewardEntries)
    (update_keeps hg.users) (insert_keeps hg.rewardEntries) (update_keeps hg.rewards)

theorem updateRefunds_keeps {p : Db → Refund → Bool} {f : Db → Refund → Refund}
    (hg : OffPromotion g)
    (hr : ∀ s t, g (Db.refundsT.set s t) = g s) : Keeps g (updateRefunds p f) :=
  updateEach_keeps hr (fun _ _ => forall_mem_nil _) fun _ new =>
    each_if fun _ => promotionRefund_keeps hg new

theorem insertRefund_keeps {f : Db → List Refund} (hg : OffPromotion g)
    (hr : ∀ s t, g (Db.refundsT.set s t) = g s) : Keeps g (insertRefund f) :=
  insertEach_keeps hr (fun r => each_if fun _ => promotionRefund_keeps hg r) f

theorem mixedPaymentFailureRelease_keeps (hg : OffPromotion g)
    (ho : ∀ s t, g (Db.ordersT.set s t) = g s) (old new : PaymentAttempt) :
    ∀ st ∈ mixedPaymentFailureRelease old new, Keeps g st :=
  each_if fun _ => each_two (updateHolds_keeps hg.wallet) (updateOrders_keeps hg ho)

theorem updateAttempts_keeps {p : Db → PaymentAttempt → Bool} {f : Db → PaymentAttempt → PaymentAttempt}
    (hg : OffPromotion g)
    (ho : ∀ s t, g (Db.ordersT.set s t) = g s)
    (ha : ∀ s t, g (Db.attemptsT.set s t) = g s) : Keeps g (updateAttempts p f) :=
  updateEach_keeps ha (fun _ _ => forall_mem_nil _) (mixedPaymentFailureRelease_keeps hg ho)

theorem updateOrders_alone (hg : OffWallet g) (ho : ∀ s t, g (Db.ordersT.set s t) = g s)
    (p : Db → ShopOrder → Bool) (hf : ∀ s o, (f s o).status ≠ .cancelled ∧ (f s o).status ≠ .expired) :
    Keeps g (updateOrders p f) := by
  refine updateEach_within (R := fun s s' => g s' = g s) (fun _ => rfl) (fun _ _ _ hab hbc => hbc.trans hab)
    (fun _ r _ => orderPaidGuards_keeps g r _) (fun _ _ => update_keeps ho) fun s r _ => each_append ?_ ?_
  · exact each_if fun hrel => (hrel.2.elim (hf s r).1 (hf s r).2).elim
  · exact orderBalanceLifecycle_keeps hg r _

theorem updateAttempts_alone (ha : ∀ s t, g (Db.attemptsT.set s t) = g s)
    (p : Db → PaymentAttempt → Bool) {f : Db → PaymentAttempt → PaymentAttempt}
    (hf : ∀ s a, (f s a).status ≠ .failed ∧ (f s a).status ≠ .expired) :
    Keeps g (updateAttempts p f) :=
  updateEach_within (R := fun s s' => g s' = g s) (fun _ => rfl) (fun _ _ _ hab hbc => hbc.trans hab)
    (fun _ _ _ => forall_mem_nil _) (fun _ _ => update_keeps ha) fun s a _ =>
      each_if fun hfail => (hfail.1.elim (hf s a).1 (hf s a).2).elim

end Frame

/-! ## The triggered tables themselves -/

theorem updateOrders_rows (hf : ∀ s o, (f s o).id = o.id) (h : updateOrders p f c s = .ok (n, s')) :
    n = s.orders.count (p s) ∧ s'.orders.rows = s.orders.rows.map (fun o => if p s o then f s o else o) := by
  refine ⟨(updateEach_ok h).1, updateEach_rows (T := Db.ordersT) hf
    (orderPaidGuards_keeps _) (orderTriggers_keep ?_) h⟩
  constructor <;> exact fun _ _ => rfl

theorem updateRefunds_rows {p : Db → Refund → Bool} {f : Db → Refund → Refund} (hf : ∀ s r, (f s r).id = r.id)
    (h : updateRefunds p f c s = .ok (n, s')) :
    n = s.refunds.count (p s) ∧ s'.refunds.rows = s.refunds.rows.map (fun r => if p s r then f s r else r) := by
  refine ⟨(updateEach_ok h).1, updateEach_rows (T := Db.refundsT) hf
    (fun _ _ st hst => by cases hst) (fun old new => ?_) h⟩
  split
  · exact promotionRefund_keeps (by constructor <;> exact fun _ _ => rfl) new
  · simp

theorem insertRefund_rows {g : Db → List Refund} (h : insertRefund g c s = .ok (n, s')) :
    n = (g s).length ∧ s'.refunds.rows = s.refunds.rows ++ g s := by
  refine insertEach_rows (T := Db.refundsT) (fun r => ?_) h
  split
  · exact promotionRefund_keeps (by constructor <;> exact fun _ _ => rfl) r
  · simp

theorem updateAttempts_rows {p : Db → PaymentAttempt → Bool} {f : Db → PaymentAttempt → PaymentAttempt}
    (hf : ∀ s a, (f s a).id = a.id) (h : updateAttempts p f c s = .ok (n, s')) :
    n = s.attempts.count (p s) ∧ s'.attempts.rows = s.attempts.rows.map (fun a => if p s a then f s a else a) := by
  refine ⟨(updateEach_ok h).1, updateEach_rows (T := Db.attemptsT) hf (fun _ _ st hst => by cases hst)
    (mixedPaymentFailureRelease_keeps (by constructor <;> exact fun _ _ => rfl) (fun _ _ => rfl)) h⟩

end Gmshop
