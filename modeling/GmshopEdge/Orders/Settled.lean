import GmshopEdge.Orders.PaidEvent

/-!
# Orders are settled once

Every call that pays an order swaps the order's status and version, and asks for the swap before it announces the
payment in the outbox. Without admin transitions a swap only finds an order that was not settled yet, so a settled one
stays as it is, and what is announced of an order is announced by the swap that settled it.

A swap that another call was faster than finds the order paid at the version it meant; the event that it adds then
stands already, and its batch aborts (`PaidHaveEvent.swap_hit`).
-/

namespace Gmshop

open List Sql Stmt Prog Option

/-! ## What the outbox says of paid orders -/

/-- The `shop_order.paid` rows. -/
def paidOutbox (s : Db) : List OutboxEvent := s.outbox.rows.filter (·.eventType == .shopOrderPaid)

def ShopOrder.payable (o : ShopOrder) : Bool := o.status == .pendingPayment || o.status == .expired

/-- What is announced as paid cannot be paid any more, and is announced once. -/
structure PaidAnnounced (s : Db) : Prop where
  settled : ∀ x ∈ paidOutbox s, ∃ o, s.orders.get? x.aggregateId = some o ∧ o.payable = false
  once : ∀ x ∈ paidOutbox s, ∀ y ∈ paidOutbox s, x.aggregateId = y.aggregateId → x = y

def SettledKept (s t : Db) : Prop :=
  ∀ id o, s.orders.get? id = some o → o.payable = false → ∃ o', t.orders.get? id = some o' ∧ o'.status = o.status

variable {st : Stmt Db} {p : Db → ShopOrder → Bool} {f : Db → ShopOrder → ShopOrder} {orderId : Id}
  {items : List OrderItem} {x : Site} {fulfillment sts : List (Stmt Db)} {e : PaymentEnv}
  {open' : RedemptionStatus → Bool} {version : Nat}

section Kept

variable {s t u : Db}

theorem ShopOrder.payable_status {o o' : ShopOrder} (h : o'.status = o.status) : o'.payable = o.payable := by
  unfold ShopOrder.payable
  rw [h]

theorem SettledKept.of_eq (h : t.orders = s.orders) : SettledKept s t :=
  fun _ o ho _ => ⟨o, by rw [h]; exact ho, rfl⟩

theorem SettledKept.refl (s : Db) : SettledKept s s := .of_eq rfl

theorem SettledKept.trans (h : SettledKept s t) (h' : SettledKept t u) : SettledKept s u := by
  intro id o ho hp
  obtain ⟨o1, ho1, hs1⟩ := h id o ho hp
  obtain ⟨o2, ho2, hs2⟩ := h' id o1 ho1 ((ShopOrder.payable_status hs1).trans hp)
  exact ⟨o2, ho2, hs2.trans hs1⟩

theorem settledKept_mapped {f : ShopOrder → ShopOrder} (h : t.orders.rows = s.orders.rows.map f)
    (hid : ∀ o, (f o).id = o.id) (hs : ∀ o, o.payable = false → (f o).status = o.status) : SettledKept s t := by
  intro id o ho hp
  refine ⟨f o, ?_, hs o hp⟩
  rw [Table.get?_map h hid, ho]
  rfl

theorem keeps_settledKept (h : Keeps Db.orders st) : Within SettledKept st :=
  fun c s n s' hs => .of_eq (h c s n s' hs)

theorem updateOrders_settledKept (hid : ∀ s o, (f s o).id = o.id)
    (hp : ∀ s o, p s o = true → o.payable = true) : Within SettledKept (updateOrders p f) := by
  intro c s n s' h
  refine settledKept_mapped (updateOrders_rows hid h).2 (fun o => ?_) fun o ho => ?_
  · split
    · exact hid s o
    · rfl
  · split
    · next hpo =>
      rw [hp s o hpo] at ho
      cases ho
    · rfl

theorem insertOrders_settledKept {c : OnConflict} {g : Db → List ShopOrder} :
    Within SettledKept (insert Db.ordersT c g) := by
  intro k s n s' h
  obtain ⟨-, t, ht, rfl⟩ := insert_ok h
  exact fun id o ho _ => ⟨o, Table.get?_append ht ho, rfl⟩

theorem updateAttempts_settledKept {p : Db → PaymentAttempt → Bool} {f : Db → PaymentAttempt → PaymentAttempt} :
    Within SettledKept (updateAttempts p f) := by
  refine updateEach_within .refl (fun _ _ _ => .trans) (fun _ _ _ => forall_mem_nil _)
    (fun _ _ => keeps_settledKept (update_off rfl)) fun _ _ _ => each_if fun _ => each_two ?_ ?_
  · exact keeps_settledKept (updateHolds_keeps (by constructor <;> exact fun _ _ => rfl))
  · refine updateOrders_settledKept (fun _ _ => rfl) fun s o hp => ?_
    simp only [Bool.and_eq_true, beq_iff_eq] at hp
    unfold ShopOrder.payable
    rw [hp.1.2]
    rfl

theorem UnpaidStmt.settledKept {paying ordering money : Prop} (h : UnpaidStmt paying ordering money st) :
    Within SettledKept st := by
  cases h with
  | swap p f hf hp =>
    refine updateOrders_settledKept hf fun s o hpo => ?_
    unfold ShopOrder.payable
    rcases hp s o hpo with hst | hst
    · rw [hst]
      rfl
    · rw [hst]
      rfl
  | quiet st h =>
    refine h.within (fun _ => keeps_settledKept)
      (fun _ h => keeps_settledKept (h.keeps (by constructor; constructor; all_goals exact fun _ _ => rfl)))
      (fun _ h =>
        h.within (fun _ => keeps_settledKept) (fun _ _ => updateAttempts_settledKept) fun _ _ => rfl)
      (fun _ p f hf hs c s n s' hu => ?_) (fun _ _ _ => insertOrders_settledKept)
      (fun _ _ _ => keeps_settledKept (insert_off rfl))
      (fun _ _ => keeps_settledKept (insertRequired_off rfl)) (fun _ _ => rfl) (fun _ _ => rfl) fun _ _ => rfl
    obtain ⟨-, t, ht, rfl⟩ := update_ok hu
    refine settledKept_mapped ht (fun o => ?_) fun o _ => ?_
    · split
      · exact (hf s o).id
      · rfl
    · split
      · exact (hs s o).1
      · rfl

theorem PaidAnnounced.step (h : PaidAnnounced s) (hkept : SettledKept s t) (hsame : paidOutbox t = paidOutbox s) :
    PaidAnnounced t := by
  refine ⟨fun x hx => ?_, fun x hx y hy => ?_⟩
  · rw [hsame] at hx
    obtain ⟨o, ho, hp⟩ := h.settled x hx
    obtain ⟨o', ho', hs⟩ := hkept _ o ho hp
    exact ⟨o', ho', (ShopOrder.payable_status hs).trans hp⟩
  · rw [hsame] at hx hy
    exact h.once x hx y hy

end Kept

/-! ## Statements that announce nothing -/

theorem insertOutbox_paidOutbox {g : Db → List OutboxEvent} (hg : ∀ s, ∀ x ∈ g s, x.eventType ≠ .shopOrderPaid) :
    Keeps paidOutbox (insert Db.outboxT .abort g) := by
  intro c s n t h
  obtain ⟨-, T, hT, rfl⟩ := insert_abort_ok h
  show T.rows.filter (·.eventType == .shopOrderPaid) = _
  rw [hT, filter_append]
  have hnone : (g s).filter (·.eventType == .shopOrderPaid) = [] :=
    filter_eq_nil_iff.mpr fun x hx heq => hg s x hx (eq_of_beq heq)
  rw [hnone, append_nil]
  rfl

theorem FulfillStmt.paidOutbox_kept (h : FulfillStmt orderId items st) : Keeps paidOutbox st := by
  cases h with
  | reserve i _ _ => exact update_off rfl
  | delivery i _ ids now => exact insertDelivery_keeps fun _ _ => rfl
  | supplierOrder i _ ids now => exact insert_off rfl
  | newEntitlement g => exact insert_off rfl
  | newGrant g => exact insert_off rfl
  | activation item now asset st h =>
    exact activateEntitlementGrantStatements_keep ⟨fun _ _ => rfl, fun _ _ => rfl⟩ item now asset st h
  | download i _ _ st h =>
    refine each_two ?_ ?_ _ h
    · exact insert_off rfl
    · exact update_off rfl
  | request i _ ids st h =>
    have hmap : ∀ {α : Type} {xs : List α} {f : α → OutboxEvent}, (∀ a, (f a).eventType ≠ .shopOrderPaid) →
        ∀ x ∈ xs.map f, x.eventType ≠ .shopOrderPaid := by
      intro α xs f hf x hx
      obtain ⟨a, -, rfl⟩ := mem_map.mp hx
      exact hf a
    unfold requestStatements at h
    split at h
    · refine each_two ?_ ?_ _ h
      · exact insertOutbox_paidOutbox fun _ => hmap fun _ => nofun
      · exact insertOutbox_paidOutbox fun _ => hmap fun _ => nofun
    split at h
    · cases h
    · rw [mem_singleton.mp h]
      exact insertOutbox_paidOutbox fun _ => hmap fun _ => nofun

def Site.pays : Site → Prop
  | .orderPayment .. | .completeFreeStoreOrder .. | .completeWalletStoreOrder .. => True
  | _ => False

theorem paidOutbox_off : OffPromotion paidOutbox := by constructor <;> exact fun _ _ => rfl

theorem updateAttempts_paidOutbox (p : Db → PaymentAttempt → Bool) (f : Db → PaymentAttempt → PaymentAttempt) :
    Keeps paidOutbox (updateAttempts p f) :=
  updateAttempts_keeps paidOutbox_off (fun _ _ => rfl) fun _ _ => rfl

theorem updateOrders_paidOutbox (p : Db → ShopOrder → Bool) (f : Db → ShopOrder → ShopOrder) :
    Keeps paidOutbox (updateOrders p f) :=
  updateOrders_keeps paidOutbox_off fun _ _ => rfl

theorem checkout_paidOutbox (c : Checkout) (capacity : List Id) (coupon : Option (Coupon × Nat)) :
    ∀ st ∈ checkoutBatch c capacity coupon, Keeps paidOutbox st := by
  intro st hst
  simp only [checkoutBatch, mem_append, mem_flatMap, mem_singleton] at hst
  rcases hst with ((hst | ⟨item, -, hst⟩) | rfl) | hst
  · unfold orderStatements at hst
    split at hst
    · rw [mem_singleton.mp hst]
      exact insert_off rfl
    · exact each_two (update_off rfl) (onChanges_within fun _ => insert_off rfl) _ hst
  · simp only [lineStatements, itemGuards, mem_append, mem_cons, not_mem_nil, or_false] at hst
    rcases hst with (((rfl | rfl) | rfl) | hst) | hst
    · exact abortWhen_keeps
    · exact abortWhen_keeps
    · exact insert_off rfl
    · split at hst
      · rw [mem_singleton.mp hst]
        exact update_off rfl
      · cases hst
    · split at hst
      · rw [mem_singleton.mp hst]
        exact insert_off rfl
      · cases hst
  · exact insert_off rfl
  · cases coupon with
    | none => cases hst
    | some k =>
      simp only [map_some, getD_some, redemptionStatements, mem_append, mem_cons,
        not_mem_nil, or_false] at hst
      rcases hst with (rfl | rfl) | hst
      · exact abortWhen_keeps
      · exact insert_off rfl
      · split at hst
        · cases hst
        · rw [mem_singleton.mp hst]
          exact update_off rfl

section Batches

variable {τ : Type} {S : Spec Db Site τ} {t u : Db} {ns : List Nat}

theorem ShopBatch.paidOutbox_kept (h : ShopBatch S (fun _ => False) x sts t) (hx : ¬x.pays) :
    ∀ st ∈ sts, Keeps paidOutbox st := by
  intro st hst
  cases h with
  | orderPayment => exact absurd trivial hx
  | freeOrder => exact absurd trivial hx
  | walletOrder => exact absurd trivial hx
  | transition order toStatus now hA _ _ => exact hA.elim
  | checkout c customer capacity coupon _ _ _ => exact checkout_paidOutbox c capacity coupon st hst
  | receipt channelId attemptId event =>
    rw [mem_singleton.mp hst]
    exact insert_off rfl
  | reject channelId attemptId event code now =>
    exact each_two (insert_off rfl) (update_off rfl) _ hst
  | failed channelId attempt event now =>
    simp only [failedPaymentBatch, mem_append, mem_cons, not_mem_nil, or_false] at hst
    rcases hst with (rfl | rfl) | hst
    · exact insert_off rfl
    · exact updateAttempts_paidOutbox _ _
    · obtain ⟨topupId, -, rfl⟩ := map_eq_some_iff.mp (mem_toList.mp hst)
      exact update_off rfl
  | topup channelId attemptId event topup now =>
    exact each_three (insert_off rfl) (updateAttempts_paidOutbox _ _) (update_off rfl) _ hst
  | reconcile attemptId now =>
    rw [mem_singleton.mp hst]
    exact update_off rfl
  | expire orderId version now =>
    exact each_six (updateOrders_paidOutbox _ _) (update_off rfl) (update_off rfl) (updateAttempts_paidOutbox _ _)
      (insert_off rfl) (update_off rfl) _ hst
  | cancelUnstarted orderId now =>
    rw [mem_singleton.mp hst]
    exact updateOrders_paidOutbox _ _
  | reserveBalance order user now _ =>
    simp only [insertHold, orderBalanceHoldValidate, orderBalanceHoldDebit, mem_append, mem_cons,
      not_mem_nil, or_false] at hst
    rcases hst with (rfl | rfl) | rfl | rfl | rfl
    · exact abortWhen_keeps
    · exact insert_off rfl
    · exact insert_off rfl
    · exact update_off rfl
    · exact insert_off rfl
  | claimPayment input amount quote e =>
    simp only [claimAttemptBatch, attemptGuards, mem_append, mem_cons, not_mem_nil, or_false] at hst
    rcases hst with (rfl | rfl) | rfl
    · exact abortWhen_keeps
    · exact abortWhen_keeps
    · exact insert_off rfl
  | paymentCreated attemptId paymentId now =>
    rw [mem_singleton.mp hst]
    exact updateAttempts_paidOutbox _ _
  | paymentFailed attemptId code now =>
    simp only [paymentCreationFailureStatements, mem_cons, not_mem_nil, or_false] at hst
    rw [hst]
    exact updateAttempts_paidOutbox _ _
  | mutateWallet input user after _ _ _ _ =>
    exact each_two (update_off rfl) (onChanges_within fun _ => insert_off rfl) _ hst
  | settleReward orderId now =>
    rw [mem_singleton.mp hst]
    exact updateRewards_keeps (fun _ _ => rfl) (fun _ _ => rfl) fun _ _ => rfl

end Batches

/-! ## A batch that pays -/

theorem FulfillStmt.announcement_kept (h : FulfillStmt orderId items st) :
    Keeps (fun s => (s.orders, paidOutbox s)) st := by
  intro c s n t hst
  have horders : Keeps Db.orders st := h.keeps (by constructor <;> exact fun _ _ => rfl)
  exact Prod.ext (horders c s n t hst) (h.paidOutbox_kept c s n t hst)

section Pays

variable {s t v u : Db} {p : Db → ShopOrder → Bool} {f : Db → ShopOrder → ShopOrder} {orderId : Id} {version c n : Nat}
  {ns : List Nat}

theorem PaidAnnounced.paying {rest : List (Stmt Db)} (h : PaidAnnounced s) (hswap : updateOrders p f c s = .ok (n, t))
    (hid : ∀ s o, (f s o).id = o.id) (hp : ∀ s o, p s o = true → o.payable = true)
    (hhit : ∀ o, t.orders.get? orderId = some o → paidAt version o = true →
      ∃ o', s.orders.get? orderId = some o' ∧ p s o' = true)
    (hevent : (v.orders, paidOutbox v) = (t.orders, paidOutbox t))
    (hrest : ∀ st ∈ rest, Keeps (fun s => (s.orders, paidOutbox s)) st) {c' : Nat}
    (hb : batch (rest ++ [paidOutboxStatement orderId version]) c' v = .ok (ns, u)) : PaidAnnounced u := by
  obtain ⟨ns1, w, ns2, hbrest, hlast, -⟩ := batch_append_ok hb
  obtain ⟨m, hannounce, -⟩ := batch_single_ok hlast
  have hw := (batch_keeps hrest hbrest).trans hevent
  simp only [Prod.mk.injEq] at hw
  obtain ⟨horders, hsame⟩ := hw
  have hkept : SettledKept s t := updateOrders_settledKept hid hp c s n t hswap
  have hw : PaidAnnounced w := by
    refine h.step (hkept.trans (.of_eq horders)) (hsame.trans ?_)
    exact updateOrders_paidOutbox p f c s n t hswap
  obtain ⟨-, T, hT, rfl⟩ := insert_abort_ok hannounce
  have hrows : paidOutbox (Db.outboxT.set w T) = paidOutbox w ++ w.fromOrder orderId (paidAt version) fun o =>
      { eventType := .shopOrderPaid, aggregateId := o.id, idempotencyKey := .shopOrderPaid orderId version } := by
    show T.rows.filter (·.eventType == .shopOrderPaid) = _
    rw [hT, filter_append]
    refine congrArg (paidOutbox w ++ ·) (filter_eq_self.mpr fun x hx => ?_)
    obtain ⟨o, -, rfl⟩ := mem_map.mp hx
    rfl
  by_cases hfound : ∃ o, w.orders.get? orderId = some o ∧ paidAt version o = true
  · obtain ⟨o, ho, hpaid⟩ := hfound
    rw [fromOrder_some ho hpaid] at hrows
    have hoid : o.id = orderId := Table.get?_key ho
    -- the order could still be paid before the swap, so it was not announced
    obtain ⟨o', ho', hpo⟩ := hhit o (horders ▸ ho) hpaid
    have hfresh : ∀ x ∈ paidOutbox w, x.aggregateId ≠ o.id := by
      intro x hx heq
      rw [hsame, updateOrders_paidOutbox p f c s n t hswap] at hx
      obtain ⟨o'', ho'', hsettled⟩ := h.settled x hx
      rw [heq, hoid, ho'] at ho''
      rw [← some.inj ho'', hp s o' hpo] at hsettled
      cases hsettled
    refine ⟨fun x hx => ?_, fun x hx y hy hxy => ?_⟩
    · rw [hrows] at hx
      rcases mem_append.mp hx with hx | hx
      · exact hw.settled x hx
      · rw [mem_singleton.mp hx]
        refine ⟨o, hoid ▸ ho, ?_⟩
        unfold paidAt at hpaid
        unfold ShopOrder.payable
        rw [Bool.and_eq_true, beq_iff_eq] at hpaid
        rw [hpaid.1]
        rfl
    · rw [hrows] at hx hy
      rcases mem_append.mp hx with hx | hx
      · rcases mem_append.mp hy with hy | hy
        · exact hw.once x hx y hy hxy
        · rw [mem_singleton.mp hy] at hxy
          exact absurd hxy (hfresh x hx)
      · rcases mem_append.mp hy with hy | hy
        · rw [mem_singleton.mp hx] at hxy
          exact absurd hxy.symm (hfresh y hy)
        · rw [mem_singleton.mp hx, mem_singleton.mp hy]
  · have hmiss : ∀ o, w.orders.get? orderId = some o → paidAt version o = false :=
      fun o ho => Bool.eq_false_iff.mpr fun hpaid => hfound ⟨o, ho, hpaid⟩
    rw [fromOrder_none hmiss, append_nil] at hrows
    exact hw.step (.of_eq rfl) hrows

end Pays

section Batches

variable {τ : Type} {S : Spec Db Site τ} {t u : Db} {ns : List Nat}

theorem insertEvent_announcement (c : OnConflict) (g : Db → List ShopOrderEvent) :
    Keeps (fun s => (s.orders, paidOutbox s)) (insert Db.eventsT c g) := insert_off rfl

theorem settleStatements_rest (hful : Fulfills S orderId e fulfillment t) :
    ∀ st ∈ fulfillment ++ [consumeRedemptionStatement orderId open'], Keeps (fun s => (s.orders, paidOutbox s)) st := by
  obtain ⟨items, -, hful⟩ := hful
  intro st hst
  rcases mem_append.mp hst with hst | hst
  · exact (fulfillment_stmts hful st hst).announcement_kept
  · rw [mem_singleton.mp hst]
    exact update_off rfl

theorem PaidAnnounced.completing {s : Db} {g : ShopOrder → ShopOrderEvent} {c : Nat} (h : PaidAnnounced s)
    (hi : PaidHaveEvent s)
    (hb : batch (updateOrders p f :: insert Db.eventsT .abort (fun s => s.fromOrder orderId (paidAt version) g) ::
      settleStatements orderId version fulfillment) c s = .ok (ns, u)) (hid : ∀ s o, (f s o).id = o.id)
    (hp : ∀ s o, p s o = true → o.payable = true)
    (hg : ∀ o, (g o).orderId = o.id ∧ (g o).orderVersion = some version)
    (hful : Fulfills S orderId e fulfillment t) : PaidAnnounced u := by
  obtain ⟨n1, t1, ms1, h1, hb, -⟩ := batch_cons_ok hb
  obtain ⟨n2, t2, ms2, h2, hb, -⟩ := batch_cons_ok hb
  obtain ⟨-, te, hte, hset⟩ := insert_abort_ok h2
  refine h.paying h1 hid hp (fun o ho hpaid => ?_) (insertEvent_announcement _ _ _ _ _ _ h2)
    (settleStatements_rest hful) (by rw [append_assoc]; exact hb)
  have hadded : te.rows = t1.events.rows ++ [g o] := by
    rw [fromOrder_some ho hpaid] at hte
    exact hte
  exact hi.swap_hit h1 hid ho hpaid hadded ⟨(hg o).1.trans (Table.get?_key ho), (hg o).2⟩

theorem afterPaymentEvent_rest {coupon : Option Id} (hful : Fulfills S orderId e fulfillment t) :
    ∀ st ∈ (coupon.map (reclaimCouponStatements orderId version)).getD [] ++
      (fulfillment ++ [consumeRedemptionStatement orderId open']), Keeps (fun s => (s.orders, paidOutbox s)) st := by
  intro st hst
  rcases mem_append.mp hst with hst | hst
  · cases coupon with
    | none => cases hst
    | some k =>
      exact each_two (update_off rfl) abortWhen_keeps _ hst
  · exact settleStatements_rest hful st hst

theorem ShopBatch.paidAnnounced (h : ShopBatch S (fun _ => False) x sts t) (hi : PaidHaveEvent t)
    (ha : PaidAnnounced t) (hb : batch sts 0 t = .ok (ns, u)) : PaidAnnounced u := by
  by_cases hx : x.pays
  swap
  · refine ha.step ?_ (batch_keeps (h.paidOutbox_kept hx) hb)
    exact batch_within .refl (fun _ _ _ => .trans) (fun st hst => (h.unpaid st hst).settledKept) hb
  have hcas : ∀ {orderId version : Nat} {o : ShopOrder}, orderCas orderId .pendingPayment version o = true →
      o.payable = true := by
    intro orderId version o hp
    unfold ShopOrder.payable
    rw [orderCas_status hp]
    rfl
  cases h with
  | orderPayment channelId event context order coupon fulfillment e _ _ hseen hful =>
    obtain ⟨t1, t2, t3, t4, hsteps⟩ := orderPaymentBatch_ok hb
    have hbefore : (t2.orders, paidOutbox t2) = (t.orders, paidOutbox t) :=
      hsteps.before (g := fun s => (s.orders, paidOutbox s)) (fun _ _ => rfl) fun _ _ => rfl
    rw [Prod.mk.injEq] at hbefore
    have ha2 : PaidAnnounced t2 := ha.step (.of_eq hbefore.1) hbefore.2
    obtain ⟨c, n, hswap⟩ := hsteps.swap
    obtain ⟨o, te, -, -, -, rfl⟩ := hsteps.event
    obtain ⟨c4, ns4, hrest⟩ := hsteps.rest
    have htail : batch (((coupon.map (·.1)).map (reclaimCouponStatements order.id (order.version + 1))).getD [] ++
        (fulfillment ++ [consumeRedemptionStatement order.id fun st => st == .reserved || st == .released]) ++
        [paidOutboxStatement order.id (order.version + 1)]) c4 (Db.eventsT.set t3 te) = .ok (ns4, u) := by
      rw [append_assoc, append_assoc, ← append_assoc]
      exact hrest
    refine ha2.paying (v := Db.eventsT.set t3 te) hswap (fun _ _ => rfl) (fun s o hp => ?_) (fun _ _ _ => ?_) rfl
      (afterPaymentEvent_rest hful) htail
    · unfold ShopOrder.payable
      rw [orderCas_status hp]
      rcases hseen with ⟨hst, -⟩ | ⟨hst, -⟩
      · rw [hst]
        rfl
      · rw [hst]
        rfl
    · rw [hbefore.1]
      exact hsteps.hit hi
  | freeOrder order fulfillment e _ hful =>
    refine ha.completing hi hb (fun _ _ => rfl) (fun s o hp => ?_) (fun o => ⟨rfl, rfl⟩) hful
    rw [Bool.and_eq_true] at hp
    exact hcas hp.1
  | walletOrder w user fulfillment e _ _ hful =>
    obtain ⟨n1, t1, ms1, h1, hb, -⟩ := batch_cons_ok hb
    obtain ⟨n2, t2, ms2, h2, hb, -⟩ := batch_cons_ok hb
    have hbefore : (t2.orders, t2.events, paidOutbox t2) = (t.orders, t.events, paidOutbox t) := by
      have hdebit : ∀ p f, Keeps (fun s : Db => (s.orders, s.events, paidOutbox s)) (update Db.usersT p f) :=
        fun p f => update_off rfl
      have hentry : ∀ g : Nat → Db → List WalletEntry, Keeps (fun s : Db => (s.orders, s.events, paidOutbox s))
          (onChanges fun n => insert Db.walletEntriesT .abort (g n)) :=
        fun g => onChanges_within fun n => insert_off rfl
      exact (hentry _ _ _ _ _ h2).trans (hdebit _ _ _ _ _ _ h1)
    simp only [Prod.mk.injEq] at hbefore
    have hi2 : PaidHaveEvent t2 := by
      unfold PaidHaveEvent
      rw [hbefore.1, hbefore.2.1]
      exact hi
    have ha2 : PaidAnnounced t2 := ha.step (.of_eq hbefore.1) hbefore.2.2
    refine ha2.completing hi2 hb (fun _ _ => rfl) (fun s o hp => ?_) (fun o => ⟨rfl, rfl⟩) hful
    rw [Bool.and_eq_true] at hp
    exact hcas hp.1
  | _ => exact hx.elim

end Batches

/-! ## Runs -/

def settledSpec : Spec Db Site Empty :=
  Spec.ofRel (fun s => PaidHaveEvent s ∧ PaidAnnounced s) anySite (fun _ _ => True) SettledKept (fun _ => trivial) .refl
    fun _ _ _ => .trans

theorem settled_admits : AdmitsShop settledSpec fun _ => False := by
  intro x sts t ns u h hi _ hb
  refine Spec.admits_ofRel ⟨h.paidHaveEvent hi.1 hb, h.paidAnnounced hi.1 hi.2 hb⟩ trivial fun _ => ?_
  exact batch_within .refl (fun _ _ _ => .trans) (fun st hst => (h.unpaid st hst).settledKept) hb

abbrev SettleCall := { c : ShopCall // c.within fun _ => False }

def SettleCall.code (c : SettleCall) : Call Site Unit := c.1.code

def isPaid (s : Db) (orderId : Id) : Bool := s.orderIs orderId (·.status == .paid)

/-- A run with the number of its steps at which the order enters `paid`. -/
inductive PaidTimes (orderId : Id) : World Db Site DomainError Unit → World Db Site DomainError Unit → Nat → Prop
  | refl (w : World Db Site DomainError Unit) : PaidTimes orderId w w 0
  | tail {w v u : World Db Site DomainError Unit} {n : Nat} (h : PaidTimes orderId w v n)
      (hstep : Step SettleCall.code anySite v u) :
      PaidTimes orderId w u (n + if isPaid v.db orderId = false ∧ isPaid u.db orderId = true then 1 else 0)

def AnswersAt {α : Type} (p : Call Site α) (s : Db) (r : Except (Failure DomainError) α) : Prop :=
  ∃ (δ : Type) (f : Db → δ × Db) (k : δ → Call Site α), p = .act none δ f k ∧ (f s).2 = s ∧ k (f s).1 = match r with
      | .ok a => .done a
      | .error e => .fail e

section Runs

variable {s : Db} {w v u : World Db Site DomainError Unit} {orderId : Id}

theorem isPaid_iff : isPaid s orderId = true ↔ ∃ o, s.orders.get? orderId = some o ∧ o.status = .paid := by
  unfold isPaid
  rw [orderIs_iff]
  exact exists_congr fun o => and_congr_right fun _ => beq_iff_eq

theorem SettledKept.isPaid {t : Db} (h : SettledKept s t) (hp : isPaid s orderId = true) : isPaid t orderId = true := by
  obtain ⟨o, ho, hs⟩ := (isPaid_iff).mp hp
  obtain ⟨o', ho', hs'⟩ := h orderId o ho (by unfold ShopOrder.payable; rw [hs]; rfl)
  exact (isPaid_iff).mpr ⟨o', ho', hs'.trans hs⟩

theorem settle_ok (c : SettleCall) (s : Db) : Prog.Ok settledSpec anyEnd c.code ∅ s :=
  (ShopCall.bare settled_admits c.1 c.2 s).ok

theorem PaidTimes.le_one {n : Nat} (h : PaidTimes orderId w v n) (hg : Good settledSpec w) :
    Good settledSpec v ∧ n ≤ 1 ∧ (n = 1 → isPaid v.db orderId = true) := by
  induction h with
  | refl => exact ⟨hg, Nat.zero_le _, nofun⟩
  | @tail v u n _ hstep ih =>
    obtain ⟨hv, hn, hpaid⟩ := ih
    obtain ⟨hu, -, hkept⟩ := Step.sound settledSpec (fun c s _ => settle_ok c s) hstep hv
    refine ⟨hu, ?_⟩
    split
    · next henter =>
      have hzero : n = 0 := by
        by_contra hne
        have hone : n = 1 := by omega
        rw [hpaid hone] at henter
        cases henter.1
      exact ⟨by omega, fun _ => henter.2⟩
    · exact ⟨hn, fun hone => SettledKept.isPaid hkept (hpaid hone)⟩

theorem runs_paidTimes (orderId : Id) (h : Runs SettleCall.code anySite w v) : ∃ n, PaidTimes orderId w v n := by
  induction h with
  | refl => exact ⟨0, .refl w⟩
  | tail _ hstep ih =>
    obtain ⟨n, hn⟩ := ih
    exact ⟨_, hn.tail hstep⟩

theorem initialRecord_unique {itemId : Id} {a b : DeliveryRecord} (ha : a ∈ s.deliveries.rows)
    (hb : b ∈ s.deliveries.rows) (hka : a.requestKey = some (.initial itemId))
    (hkb : b.requestKey = some (.initial itemId)) : a = b := by
  by_contra hne
  have hpair : s.deliveries.rows.Pairwise fun a b =>
      ¬(a.requestKey = some (.initial itemId) ∧ b.requestKey = some (.initial itemId)) := by
    refine s.deliveries.distinct.imp fun {a b} hclash hkeys => ?_
    have hsame : (a.id == b.id || (a.requestKey == b.requestKey && a.requestKey.isSome)) = false := hclash
    rw [hkeys.1, hkeys.2, beq_self_eq_true, isSome_some, Bool.and_self, Bool.or_true] at hsame
    cases hsame
  have : Std.Symm fun a b : DeliveryRecord =>
      ¬(a.requestKey = some (.initial itemId) ∧ b.requestKey = some (.initial itemId)) := ⟨fun _ _ h hab => h hab.symm⟩
  exact hpair.forall ha hb hne ⟨hka, hkb⟩

theorem processShopPaymentEvent_recorded {channelId : Id} {event : PaymentEvent} {r : ReplayReceipt} (e : PaymentEnv)
    (hr : findPaymentReplayReceipt s channelId event.providerEventId = some r) :
    AnswersAt (processShopPaymentEvent channelId event e) s (.ok { duplicate := true, status := r.status.report }) ∨
      AnswersAt (processShopPaymentEvent channelId event e) s (.error (.thrown paymentReplayConflict)) := by
  by_cases hsame : r.eventType ≠ event.type ∨ r.payloadDigest ≠ event.payloadDigest
  · refine .inr ⟨_, _, _, rfl, rfl, ?_⟩
    dsimp only
    rw [hr]
    show liftExcept (presentPaymentReplayReceipt r event) = _
    unfold presentPaymentReplayReceipt
    rw [if_pos hsame]
    rfl
  · refine .inl ⟨_, _, _, rfl, rfl, ?_⟩
    dsimp only
    rw [hr]
    show liftExcept (presentPaymentReplayReceipt r event) = _
    unfold presentPaymentReplayReceipt
    rw [if_neg hsame]
    rfl

/-- However payments, completions and expiries interleave, an order enters `paid` once, an item has one initial
delivery record, an order is announced as paid once, and an event that is recorded changes nothing any more. -/
theorem orders_settled_once (hpaid : PaidHaveEvent s) (hannounced : PaidAnnounced s)
    (hrun : Runs SettleCall.code anySite ⟨s, []⟩ w) :
    (∀ orderId n, PaidTimes orderId ⟨s, []⟩ w n → n ≤ 1) ∧
      (∀ itemId, ∀ a ∈ w.db.deliveries.rows, ∀ b ∈ w.db.deliveries.rows, a.requestKey = some (.initial itemId) →
        b.requestKey = some (.initial itemId) → a = b) ∧
      (∀ x ∈ paidOutbox w.db, ∀ y ∈ paidOutbox w.db, x.aggregateId = y.aggregateId → x = y) ∧
      ∀ channelId event e r, findPaymentReplayReceipt w.db channelId event.providerEventId = some r →
        AnswersAt (processShopPaymentEvent channelId event e) w.db
            (.ok { duplicate := true, status := r.status.report }) ∨
          AnswersAt (processShopPaymentEvent channelId event e) w.db (.error (.thrown paymentReplayConflict)) := by
  have hgood : Good settledSpec (⟨s, []⟩ : World Db Site DomainError Unit) := good_idle settledSpec ⟨hpaid, hannounced⟩
  refine ⟨fun orderId n h => (h.le_one hgood).2.1, fun itemId a ha b hb hka hkb => ?_, ?_, fun _ _ e _ hr => ?_⟩
  · exact initialRecord_unique ha hb hka hkb
  · exact (Runs.sound settledSpec (fun c s _ => settle_ok c s) hrun hgood).1.1.2.once
  · exact processShopPaymentEvent_recorded e hr

end Runs

def freeOrderDb : Db where
  orders := .of [{ id := 1, status := .pendingPayment, version := 1, totalMinor := 0 }]

def completeOrder1 : SettleCall := ⟨.completeFree 1 none ⟨5, fun _ => ⟨1, 1, 1, 1⟩⟩, trivial⟩

/-- Two completions read the order before either commits. -/
theorem orders_settled_once_twice : ∃ w : World Db Site DomainError Unit,
    Runs SettleCall.code anySite ⟨freeOrderDb, []⟩ w ∧ w.Quiescent ∧ isPaid w.db 1 = true ∧
      (paidOutbox w.db).length = 1 ∧ ∃ n ≤ 1, PaidTimes 1 ⟨freeOrderDb, []⟩ w n := by
  obtain ⟨w, hw⟩ : ∃ w, w = World.exec SettleCall.code anySite ⟨freeOrderDb, []⟩
      ([Move.start completeOrder1, Move.start completeOrder1] ++ (replicate 4 [Move.run 0, Move.run 1]).flatten) := ⟨_, rfl⟩
  have hruns : Runs SettleCall.code anySite ⟨freeOrderDb, []⟩ w := by
    rw [hw]
    exact World.exec_runs _ _ _ _
  have hpaid : PaidHaveEvent freeOrderDb := by decide
  have hannounced : PaidAnnounced freeOrderDb :=
    ⟨fun x hx => absurd (show x ∈ [] from hx) not_mem_nil,
      fun x hx => absurd (show x ∈ [] from hx) not_mem_nil⟩
  obtain ⟨n, hn⟩ := runs_paidTimes 1 hruns
  refine ⟨w, hruns, ?_, ?_, ?_, n, (orders_settled_once hpaid hannounced hruns).1 1 n hn, hn⟩
  · rw [hw]
    decide
  · rw [hw]
    decide
  · rw [hw]
    decide

/-! ## Orders between two points of a run -/

/-- Whatever calls do in between, no order is lost or gets another total or owner, its version never falls, and while
the version stands so does the status. -/
theorem orders_only_forward {s : Db} {w v : World Db Site DomainError Unit} (hrun : Runs ShopCall.code anySite ⟨s, []⟩ w)
    (hlater : Runs ShopCall.code anySite w v) {id : Id} {o : ShopOrder} (ho : w.db.orders.get? id = some o) :
    ∃ o', v.db.orders.get? id = some o' ∧ OrderLater o o' := by
  have hkept : OrdersKept w.db v.db := ShopCall.later (f := fun c => c) (A := fun _ => True) .refl (fun _ _ _ => .trans)
    (by rintro (_ | _) <;> trivial) (fun h hb => h.ordersKept hb) hrun hlater
  exact hkept id o ho

def freeRun : World Db Site DomainError Unit :=
  World.exec ShopCall.code anySite ⟨freeOrderDb, []⟩ (.start completeOrder1.1 :: replicate 4 (.run 0))

theorem orders_only_forward_freeRun : ∃ o', freeRun.db.orders.get? 1 = some o' ∧
    OrderLater { id := 1, status := .pendingPayment, version := 1, totalMinor := 0 } o' :=
  orders_only_forward .refl (World.exec_runs _ _ _ _) (by decide)

/-- Payments, completions and expiries never touch the status of an order that waits for no payment. -/
theorem settled_status_final {s : Db} {w v : World Db Site DomainError Unit}
    (hrun : Runs SettleCall.code anySite ⟨s, []⟩ w) (hlater : Runs SettleCall.code anySite w v) {id : Id} {o : ShopOrder}
    (ho : w.db.orders.get? id = some o) (hsettled : o.payable = false) :
    ∃ o', v.db.orders.get? id = some o' ∧ o'.status = o.status := by
  have hkept : SettledKept w.db v.db := ShopCall.later .refl (fun _ _ _ => .trans) (fun c : SettleCall => c.2)
    (fun h hb => batch_within .refl (fun _ _ _ => .trans) (fun st hst => (h.unpaid st hst).settledKept) hb) hrun hlater
  exact hkept id o ho hsettled

def cancelledOrderDb : Db where
  orders := .of [{ id := 1, status := .cancelled, version := 2, totalMinor := 0 }]

theorem settled_status_final_cancelled : ∃ o', (World.exec SettleCall.code anySite ⟨cancelledOrderDb, []⟩
      (.start completeOrder1 :: replicate 4 (.run 0))).db.orders.get? 1 = some o' ∧ o'.status = .cancelled :=
  settled_status_final (o := { id := 1, status := .cancelled, version := 2, totalMinor := 0 }) .refl
    (World.exec_runs _ _ _ _) (by decide) rfl

end Gmshop
