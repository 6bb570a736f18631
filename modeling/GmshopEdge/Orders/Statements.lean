import GmshopEdge.Payments.Statements

/-!
# The statements of the shop's batches

`ShopStmt` lists the kinds of statements in the batches of `ShopBatch` (`ShopBatch.stmts`): which table
each writes, and what every one of its kind leaves alone in the rows it touches.
-/

namespace Gmshop

open List Sql Stmt Option

structure OrderMove (o o' : ShopOrder) : Prop where
  id : o'.id = o.id
  totalMinor : o'.totalMinor = o.totalMinor
  userId : o'.userId = o.userId
  email : o'.normalizedContactEmail = o.normalizedContactEmail

/-- What no statement changes of a payment attempt; a succeeded one stays succeeded. -/
structure AttemptMove (a a' : PaymentAttempt) : Prop where
  id : a'.id = a.id
  orderId : a'.orderId = a.orderId
  succeeded : a.status = .succeeded → a'.status = .succeeded

/-- The event types that the batches insert without asking for the order's swap. -/
def OrderEventType.optional (type : OrderEventType) : Bool := type != .paymentSucceeded

/-- The statements that leave orders, attempts, events, coupons and redemptions alone; only a batch that
moves `money` writes wallets, their entries and holds itself. -/
inductive PlainStmt (money : Prop) : Stmt Db → Prop
  | guard (p : Nat → Db → Bool) (m : String) : PlainStmt money (abortWhen p m)
  | receipts (g : Db → List ReplayReceipt) : PlainStmt money (insert Db.receiptsT .abort g)
  | topups (p : Db → WalletTopup → Bool) (f : Db → WalletTopup → WalletTopup) :
      PlainStmt money (update Db.topupsT p f)
  | fulfill (orderId : Id) (items : List OrderItem) (st : Stmt Db)
      (h : FulfillStmt orderId items st) : PlainStmt money st
  | outbox (g : Db → List OutboxEvent) : PlainStmt money (insert Db.outboxT .abort g)
  | users (h : money) (p : Db → User → Bool) (f : Db → User → User) :
      PlainStmt money (update Db.usersT p f)
  | wallet (h : money) (g : Db → List WalletEntry) : PlainStmt money (insert Db.walletEntriesT .abort g)
  | walletOn (h : money) (g : Nat → Db → List WalletEntry) :
      PlainStmt money (onChanges fun n => insert Db.walletEntriesT .abort (g n))
  | rewardEntries (h : money) (g : Db → List RewardEntry) :
      PlainStmt money (insert Db.rewardEntriesT .abort g)
  | holds (h : money) (g : Db → List OrderBalanceHold) : PlainStmt money (insert Db.holdsT .abort g)
  | releaseSale (orderId : Id) : PlainStmt money (releaseSaleStatement orderId)
  | reserveSale (componentId orderItemId : Id) (quantity : Nat) :
      PlainStmt money (reserveSaleStatement componentId orderItemId quantity)
  | assets (g : Db → List OrderItemDownloadAsset) :
      PlainStmt money (insert Db.downloadAssetsT .abort g)
  | rewards (p : Db → PromotionReward → Bool) (f : Db → PromotionReward → PromotionReward) :
      PlainStmt money (updateRewards p f)

inductive AttemptStmt : Stmt Db → Prop
  | status (p : Db → PaymentAttempt → Bool) (f : Db → PaymentAttempt → PaymentAttempt)
      (hf : ∀ s a, (f s a).id = a.id) (hp : ∀ s a, p s a = true → AttemptMove a (f s a)) :
      AttemptStmt (updateAttempts p f)
  | row (p : Db → PaymentAttempt → Bool) (f : Db → PaymentAttempt → PaymentAttempt)
      (hf : ∀ s a, AttemptMove a (f s a)) (hs : ∀ s a, (f s a).status = a.status) :
      AttemptStmt (update Db.attemptsT p f)
  | new (g : Db → List PaymentAttempt) (hg : ∀ s, ∀ a ∈ g s, a.status = .created) :
      AttemptStmt (insert Db.attemptsT .doNothing g)

/-- The statements that put no order into another status; only a batch that is `paying` requires the
event of its order, only one that is `ordering` adds an order. -/
inductive QuietStmt (paying ordering money : Prop) : Stmt Db → Prop
  | plain (st : Stmt Db) (h : PlainStmt money st) : QuietStmt paying ordering money st
  | attempts (st : Stmt Db) (h : AttemptStmt st) : QuietStmt paying ordering money st
  | orderRow (h : ordering) (p : Db → ShopOrder → Bool) (f : Db → ShopOrder → ShopOrder)
      (hf : ∀ s o, OrderMove o (f s o)) (hs : ∀ s o, (f s o).status = o.status ∧ (f s o).version = o.version) :
      QuietStmt paying ordering money (update Db.ordersT p f)
  | newOrder (h : ordering) (g : Db → List ShopOrder) (hg : ∀ s, ∀ o ∈ g s, o.status = .pendingPayment) :
      QuietStmt paying ordering money (insert Db.ordersT .abort g)
  | newOrderOn (h : ordering) (g : Nat → Db → List ShopOrder)
      (hg : ∀ n s, ∀ o ∈ g n s, o.status = .pendingPayment) :
      QuietStmt paying ordering money (onChanges fun n => insert Db.ordersT .abort (g n))
  | items (h : ordering) (g : Db → List ShopOrderItem) : QuietStmt paying ordering money (insert Db.itemsT .abort g)
  | events (c : OnConflict) (g : Db → List ShopOrderEvent)
      (hg : ∀ s, ∀ ev ∈ g s, ev.eventType.optional = true) : QuietStmt paying ordering money (insert Db.eventsT c g)
  | paymentEvent (h : paying) (g : Db → Option ShopOrderEvent) :
      QuietStmt paying ordering money (insertRequired Db.eventsT g)
  | coupons (p : Db → Coupon → Bool) (f : Db → Coupon → Coupon) :
      QuietStmt paying ordering money (update Db.couponsT p f)
  | redemptions (p : Db → CouponRedemption → Bool) (f : Db → CouponRedemption → CouponRedemption) :
      QuietStmt paying ordering money (update Db.redemptionsT p f)
  | newRedemption (h : ordering) (g : Db → List CouponRedemption) :
      QuietStmt paying ordering money (insert Db.redemptionsT .abort g)

inductive ShopStmt (paying ordering money : Prop) : Stmt Db → Prop
  | quiet (st : Stmt Db) (h : QuietStmt paying ordering money st) : ShopStmt paying ordering money st
  | orders (p : Db → ShopOrder → Bool) (f : Db → ShopOrder → ShopOrder)
      (hf : ∀ s o, OrderMove o (f s o))
      (hv : ∀ s o, p s o = true → (f s o).version = o.version + 1)
      (hs : ∀ s o, p s o = true → (f s o).status ≠ .pendingPayment ∧
        ((f s o).status.countsAsPurchase = true → o.status.countsAsPurchase = true ∨ paying)) :
      ShopStmt paying ordering money (updateOrders p f)

/-- A component of the database apart from what plain statements write. -/
structure OffPlain {γ : Type} (g : Db → γ) : Prop extends OffFulfillment g where
  receipts : ∀ s t, g (Db.receiptsT.set s t) = g s
  topups : ∀ s t, g (Db.topupsT.set s t) = g s
  users : ∀ s t, g (Db.usersT.set s t) = g s
  walletEntries : ∀ s t, g (Db.walletEntriesT.set s t) = g s
  rewardEntries : ∀ s t, g (Db.rewardEntriesT.set s t) = g s
  holds : ∀ s t, g (Db.holdsT.set s t) = g s
  rewards : ∀ s t, g (Db.rewardsT.set s t) = g s

variable {money ordering paying : Prop} {γ : Type} {st : Stmt Db} {o order : ShopOrder}
  {attemptId channelId orderId version : Id} {e : PaymentEnv} {fulfillment sts : List (Stmt Db)}
  {coupon : Option Id} {now : Time} {s t u : Db} {event : PaymentEvent} {ns : List Nat} {x : Site}
  {g : Db → γ}

theorem PlainStmt.keeps (h : PlainStmt money st) (hg : OffPlain g) : Keeps g st := by
  cases h with
  | guard p m => exact abortWhen_keeps
  | receipts g => exact insert_keeps hg.receipts
  | topups p f => exact update_keeps hg.topups
  | fulfill orderId items st h => exact h.keeps hg.toOffFulfillment
  | outbox g => exact insert_keeps hg.outbox
  | users h p f => exact update_keeps hg.users
  | wallet h g => exact insert_keeps hg.walletEntries
  | walletOn h g => exact onChanges_within fun _ => insert_keeps hg.walletEntries
  | rewardEntries h g => exact insert_keeps hg.rewardEntries
  | holds h g => exact insert_keeps hg.holds
  | releaseSale orderId => exact update_keeps hg.stock
  | reserveSale componentId itemId quantity => exact update_keeps hg.stock
  | assets g => exact insert_keeps hg.downloadAssets
  | rewards p f => exact updateRewards_keeps hg.users hg.rewards hg.rewardEntries

/-- Attempts and plain rows: what a batch that is about no order writes. -/
def SideStmt (money : Prop) (st : Stmt Db) : Prop := PlainStmt money st ∨ AttemptStmt st

theorem SideStmt.quiet (h : SideStmt money st) : QuietStmt paying ordering money st :=
  h.elim (.plain _) (.attempts _)

structure OffShop {γ : Type} (g : Db → γ) : Prop extends OffPlain g where
  orders : ∀ s t, g (Db.ordersT.set s t) = g s
  items : ∀ s t, g (Db.itemsT.set s t) = g s
  events : ∀ s t, g (Db.eventsT.set s t) = g s
  attempts : ∀ s t, g (Db.attemptsT.set s t) = g s
  coupons : ∀ s t, g (Db.couponsT.set s t) = g s
  redemptions : ∀ s t, g (Db.redemptionsT.set s t) = g s

theorem OffShop.promotion (hg : OffShop g) : OffPromotion g :=
  ⟨hg.users, hg.walletEntries, hg.holds, hg.rewards, hg.rewardEntries, hg.coupons, hg.redemptions⟩

theorem QuietStmt.keeps (hg : OffShop g) (h : QuietStmt paying ordering money st) : Keeps g st := by
  cases h with
  | plain st h => exact h.keeps hg.toOffPlain
  | attempts st h =>
    cases h with
    | status p f hf hp => exact updateAttempts_keeps hg.promotion hg.orders hg.attempts
    | row p f hf hs => exact update_keeps hg.attempts
    | new g hg' => exact insert_keeps hg.attempts
  | orderRow h p f hf hs => exact update_keeps hg.orders
  | newOrder h g hg' => exact insert_keeps hg.orders
  | newOrderOn h g hg' => exact onChanges_within fun _ => insert_keeps hg.orders
  | items h g => exact insert_keeps hg.items
  | events c g hg' => exact insert_keeps hg.events
  | paymentEvent h g => exact insertRequired_keeps hg.events
  | coupons p f => exact update_keeps hg.coupons
  | redemptions p f => exact update_keeps hg.redemptions
  | newRedemption h g => exact insert_keeps hg.redemptions

theorem ShopStmt.keeps (hg : OffShop g) (h : ShopStmt paying ordering money st) : Keeps g st := by
  cases h with
  | quiet st h => exact h.keeps hg
  | orders p f hf hv hs => exact updateOrders_keeps hg.promotion hg.orders

variable {R : Db → Db → Prop}

theorem AttemptStmt.within (h : AttemptStmt st) (hkeep : ∀ st, Keeps g st → Within R st)
    (hstatus : ∀ p f, Within R (updateAttempts p f))
    (ha : ∀ s t, g (Db.attemptsT.set s t) = g s) : Within R st := by
  cases h with
  | status p f hf hp => exact hstatus p f
  | row p f hf hs => exact hkeep _ (update_keeps ha)
  | new g hg => exact hkeep _ (insert_keeps ha)

theorem QuietStmt.within (h : QuietStmt paying ordering money st) (hkeep : ∀ st, Keeps g st → Within R st)
    (hplain : ∀ st, PlainStmt money st → Within R st) (hattempts : ∀ st, AttemptStmt st → Within R st)
    (hrow : ordering → ∀ p f, (∀ s o, OrderMove o (f s o)) →
      (∀ s o, (f s o).status = o.status ∧ (f s o).version = o.version) → Within R (update Db.ordersT p f))
    (hnew : ordering → ∀ g : Db → List ShopOrder, (∀ s, ∀ o ∈ g s, o.status = .pendingPayment) →
      Within R (insert Db.ordersT .abort g))
    (hevents : ∀ c, ∀ g : Db → List ShopOrderEvent, (∀ s, ∀ ev ∈ g s, ev.eventType.optional = true) →
      Within R (insert Db.eventsT c g)) (hpayment : paying → ∀ g, Within R (insertRequired Db.eventsT g))
    (hitems : ∀ s t, g (Db.itemsT.set s t) = g s)
    (hcoupons : ∀ s t, g (Db.couponsT.set s t) = g s)
    (hredemptions : ∀ s t, g (Db.redemptionsT.set s t) = g s) : Within R st := by
  cases h with
  | plain st h => exact hplain st h
  | attempts st h => exact hattempts st h
  | orderRow h p f hf hs => exact hrow h p f hf hs
  | newOrder h g hg => exact hnew h g hg
  | newOrderOn h g hg => exact onChanges_within fun n => hnew h (g n) (hg n)
  | items h g => exact hkeep _ (insert_keeps hitems)
  | events c g hg => exact hevents c g hg
  | paymentEvent h g => exact hpayment h g
  | coupons p f => exact hkeep _ (update_keeps hcoupons)
  | redemptions p f => exact hkeep _ (update_keeps hredemptions)
  | newRedemption h g => exact hkeep _ (insert_keeps hredemptions)

section Stmts

variable {τ : Type} {S : Spec Db Site τ} {A : ShopOrderStatus → Prop} {t : Db}

variable {st : ShopOrderStatus}

theorem orderCas_version (h : orderCas orderId st version o = true) : version + 1 = o.version + 1 := by
  simp only [orderCas, Bool.and_eq_true, beq_iff_eq] at h
  rw [h.2.2]

theorem orderCas_status (h : orderCas orderId st version o = true) : o.status = st := by
  simp only [orderCas, Bool.and_eq_true, beq_iff_eq] at h
  exact h.2.1

theorem canTransition_spec {a b : ShopOrderStatus} (h : canTransitionShopOrder a b = true) :
    a.countsAsPurchase = true ∧ b ≠ .pendingPayment := by
  cases a <;> cases b <;> first | exact ⟨rfl, by decide⟩ | cases h

theorem OrderMove.paid (version : Nat) (now : Time) (o : ShopOrder) :
    OrderMove o (paidOrder version now o) := ⟨rfl, rfl, rfl, rfl⟩

theorem OrderMove.status (st : ShopOrderStatus) (version : Nat) (now : Time) (o : ShopOrder) :
    OrderMove o (setStatus st version now o) := ⟨rfl, rfl, rfl, rfl⟩

variable {paying ordering money : Prop}

theorem settleStatements_stmts {version : Nat} (hf : Fulfills S orderId e fulfillment t) :
    ∀ st ∈ settleStatements orderId version fulfillment, QuietStmt paying ordering money st := by
  obtain ⟨items, -, hful⟩ := hf
  intro st hst
  simp only [settleStatements, mem_append, mem_cons, not_mem_nil, or_false] at hst
  rcases hst with hst | rfl | rfl
  · exact .plain _ (.fulfill _ _ _ (fulfillment_stmts hful st hst))
  · exact .redemptions _ _
  · exact .plain _ (.outbox _)

theorem checkout_stmts (c : Checkout) (capacity : List Id) (coupon : Option (Coupon × Nat)) :
    ∀ st ∈ checkoutBatch c capacity coupon, QuietStmt paying True money st := by
  intro st hst
  simp only [checkoutBatch, mem_append, mem_flatMap, mem_singleton] at hst
  rcases hst with ((hst | ⟨item, -, hst⟩) | rfl) | hst
  · unfold orderStatements at hst
    split at hst
    · rw [mem_singleton.mp hst]
      exact .newOrder trivial _ fun s o ho => by rw [mem_singleton.mp ho]; rfl
    · refine each_two ?_ ?_ _ hst
      · exact .coupons _ _
      · refine .newOrderOn trivial _ fun n s o ho => ?_
        split at ho
        · rw [mem_singleton.mp ho]
          rfl
        · cases ho
  · simp only [lineStatements, itemGuards, mem_append, mem_cons, not_mem_nil, or_false] at hst
    rcases hst with (((rfl | rfl) | rfl) | hst) | hst
    · exact .plain _ (.guard _ _)
    · exact .plain _ (.guard _ _)
    · exact .items trivial _
    · split at hst
      · rw [mem_singleton.mp hst]
        exact .plain _ (.reserveSale _ _ _)
      · cases hst
    · split at hst
      · rw [mem_singleton.mp hst]
        exact .plain _ (.assets _)
      · cases hst
  · exact .events _ _ fun s ev hev => by rw [mem_singleton.mp hev]; rfl
  · cases coupon with
    | none => cases hst
    | some k =>
      simp only [map_some, getD_some, redemptionStatements, mem_append,
        mem_cons, not_mem_nil, or_false] at hst
      rcases hst with (rfl | rfl) | hst
      · exact .plain _ (.guard _ _)
      · exact .newRedemption trivial _
      · split at hst
        · cases hst
        · rw [mem_singleton.mp hst]
          exact .orderRow trivial _ _ (fun _ _ => ⟨rfl, rfl, rfl, rfl⟩) fun _ _ => ⟨rfl, rfl⟩

theorem walletBatch_stmts (input : WalletMutation) (before after : Int) (version : Nat) :
    ∀ st ∈ walletBatch input before after version, PlainStmt True st := by
  intro st hst
  exact each_two (.users trivial _ _) (.walletOn trivial _) _ hst

theorem insertHold_stmts (now : Time) (hold : OrderBalanceHold) : ∀ st ∈ insertHold now hold, PlainStmt True st := by
  intro st hst
  simp only [insertHold, orderBalanceHoldValidate, orderBalanceHoldDebit, mem_append,
    mem_cons, not_mem_nil, or_false] at hst
  rcases hst with (rfl | rfl) | rfl | rfl | rfl
  · exact .guard _ _
  · exact .holds trivial _
  · exact .wallet trivial _
  · exact .users trivial _ _
  · exact .rewardEntries trivial _

theorem expireBatch_stmts (orderId : Id) (version : Nat) (now : Time) :
    ∀ st ∈ (expireBatch orderId version now).tail, QuietStmt paying ordering money st := by
  intro st hst
  refine each_five ?_ ?_ ?_ ?_ ?_ _ hst
  · exact .coupons _ _
  · exact .redemptions _ _
  · refine .attempts _ (.status _ _ (fun _ _ => rfl) fun s a hp => ⟨rfl, rfl, fun hs => ?_⟩)
    simp [hs] at hp
  · refine .events _ _ fun s ev hev => ?_
    obtain ⟨o, -, rfl⟩ := mem_map.mp hev
    rfl
  · exact .plain _ (.releaseSale _)

def afterPaymentEvent (orderId : Id) (version : Nat) (coupon : Option Id)
    (fulfillment : List (Stmt Db)) : List (Stmt Db) :=
  (coupon.map (reclaimCouponStatements orderId version)).getD [] ++ fulfillment ++
    [consumeRedemptionStatement orderId fun st => st == .reserved || st == .released,
      paidOutboxStatement orderId version]

theorem afterPaymentEvent_stmts {version : Nat} (hf : Fulfills S orderId e fulfillment t) :
    ∀ st ∈ afterPaymentEvent orderId version coupon fulfillment, QuietStmt paying ordering money st := by
  obtain ⟨items, -, hful⟩ := hf
  intro st hst
  simp only [afterPaymentEvent, mem_append, mem_cons, not_mem_nil, or_false] at hst
  rcases hst with (hst | hst) | rfl | rfl
  · cases coupon with
    | none => cases hst
    | some k =>
      exact each_two (.coupons _ _) (.plain _ (.guard _ _)) _ hst
  · exact .plain _ (.fulfill _ _ _ (fulfillment_stmts hful st hst))
  · exact .redemptions _ _
  · exact .plain _ (.outbox _)

theorem orderPaymentBatch_eq (channelId attemptId : Id) (event : PaymentEvent) (order : ShopOrder)
    (coupon : Option Id) (fulfillment : List (Stmt Db)) (now : Time) :
    orderPaymentBatch channelId attemptId event order coupon fulfillment now =
      (orderPaymentBatch channelId attemptId event order coupon fulfillment now).take 4 ++
        afterPaymentEvent order.id (order.version + 1) coupon fulfillment := by
  simp [orderPaymentBatch, afterPaymentEvent]

structure OrderPaymentSteps (channelId attemptId : Id) (event : PaymentEvent) (order : ShopOrder)
    (coupon : Option Id) (fulfillment : List (Stmt Db)) (now : Time) (t t1 t2 t3 t4 u : Db) : Prop where
  receipt : ∃ n, paymentEventStatement channelId attemptId event .processed 0 t = .ok (n, t1)
  attempt : ∃ c n, updateAttempts (fun _ a => a.id == attemptId &&
      (a.status == .created || a.status == .pending || a.status == .expired))
    (fun _ a => { a with status := .succeeded, updatedAt := now, failureCode := none }) c t1 = .ok (n, t2)
  swap : ∃ c n, updateOrders (fun _ o => orderCas order.id order.status order.version o)
    (fun _ o => paidOrder (order.version + 1) now o) c t2 = .ok (n, t3)
  event : ∃ o te, t3.orders.get? order.id = some o ∧ paidAt (order.version + 1) o = true ∧
    te.rows = t3.events.rows ++ [{ orderId := o.id, eventType := .paymentSucceeded
                                   fromStatus := some order.status, toStatus := some .paid
                                   orderVersion := some (order.version + 1) }] ∧
    t4 = Db.eventsT.set t3 te
  rest : ∃ c ns, batch (afterPaymentEvent order.id (order.version + 1) coupon fulfillment) c t4 =
    .ok (ns, u)

theorem orderPaymentBatch_ok
    (hb : batch (orderPaymentBatch channelId attemptId event order coupon fulfillment now) 0 t = .ok (ns, u)) :
    ∃ t1 t2 t3 t4, OrderPaymentSteps channelId attemptId event order coupon fulfillment now t t1 t2 t3 t4 u := by
  rw [orderPaymentBatch_eq] at hb
  obtain ⟨ns1, s4, ns2, hb1, hb2, -⟩ := batch_append_ok hb
  obtain ⟨n1, t1, n2, t2, n3, t3, n4, t4, h1, h2, h3, h4, rfl⟩ := batch_four_ok hb1
  refine ⟨t1, t2, t3, t4, ⟨n1, h1⟩, ⟨_, n2, h2⟩, ⟨_, n3, h3⟩, ?_, ⟨_, ns2, hb2⟩⟩
  obtain ⟨ev, te, hev, hte, -, ht4⟩ := insertRequired_ok h4
  obtain ⟨o, ho, rfl⟩ := mem_map.mp (mem_of_mem_head? hev)
  obtain ⟨hmem, hp⟩ := mem_filter.mp ho
  rw [Bool.and_eq_true, beq_iff_eq] at hp
  exact ⟨o, te, Table.get?_eq_some_iff.mpr ⟨hmem, hp.1⟩, hp.2, hte, ht4⟩

theorem OrderPaymentSteps.before {t1 t2 t3 t4 : Db}
    (h : OrderPaymentSteps channelId attemptId event order coupon fulfillment now t t1 t2 t3 t4 u)
    (hr : ∀ s t, g (Db.receiptsT.set s t) = g s) (ha : ∀ s t, g (Db.attemptsT.set s t) = g s) : g t2 = g t := by
  obtain ⟨n1, h1⟩ := h.receipt
  obtain ⟨c, n2, h2⟩ := h.attempt
  rw [updateAttempts_alone ha _ (fun _ _ => ⟨by simp, by simp⟩) _ _ _ _ h2]
  exact (insert_keeps hr).eq h1

def Site.isPayment : Site → Prop
  | .orderPayment .. => True
  | _ => False

def Site.isCheckout : Site → Prop
  | .createMultiStoreOrder .. => True
  | _ => False

def Site.isSide : Site → Prop
  | .orderPayment .. | .completeFreeStoreOrder .. | .completeWalletStoreOrder .. => False
  | .expireStoreOrder .. | .transitionShopOrder .. | .cancelUnstartedBalancePayment .. => False
  | .createMultiStoreOrder .. => False
  | _ => True

def Site.isMoney : Site → Prop
  | .reserveOrderBalance .. | .mutateWallet .. | .completeWalletStoreOrder .. => True
  | _ => False

theorem ShopBatch.side (h : ShopBatch S A x sts t) (hx : x.isSide) : ∀ st ∈ sts, SideStmt x.isMoney st := by
  intro st hst
  cases h with
  | receipt channelId attemptId event =>
    rw [mem_singleton.mp hst]
    exact .inl (.receipts _)
  | reject channelId attemptId event code now =>
    exact each_two (.inl (.receipts _)) (.inr (.row _ _ (fun _ _ => ⟨rfl, rfl, id⟩) fun _ _ => rfl)) _ hst
  | failed channelId attempt event now =>
    simp only [failedPaymentBatch, mem_append, mem_cons, not_mem_nil, or_false] at hst
    rcases hst with (rfl | rfl) | hst
    · exact .inl (.receipts _)
    · refine .inr (.status _ _ (fun _ _ => rfl) fun s a hp => ⟨rfl, rfl, fun hs => ?_⟩)
      simp [hs] at hp
    · obtain ⟨topupId, -, rfl⟩ := map_eq_some_iff.mp (mem_toList.mp hst)
      exact .inl (.topups _ _)
  | topup channelId attemptId event topup now =>
    exact each_three (.inl (.receipts _))
      (.inr (.status _ _ (fun _ _ => rfl) fun _ _ _ => ⟨rfl, rfl, fun _ => rfl⟩)) (.inl (.topups _ _)) _ hst
  | reconcile attemptId now =>
    rw [mem_singleton.mp hst]
    exact .inr (.row _ _ (fun _ _ => ⟨rfl, rfl, id⟩) fun _ _ => rfl)
  | reserveBalance order user now _ => exact .inl (insertHold_stmts _ _ st hst)
  | claimPayment input amount quote e =>
    simp only [claimAttemptBatch, attemptGuards, mem_append, mem_cons, not_mem_nil, or_false] at hst
    rcases hst with (rfl | rfl) | rfl
    · exact .inl (.guard _ _)
    · exact .inl (.guard _ _)
    · exact .inr (.new _ fun s a ha => by rw [mem_singleton.mp ha]; rfl)
  | paymentCreated attemptId paymentId now =>
    rw [mem_singleton.mp hst]
    refine .inr (.status _ _ (fun _ _ => rfl) fun s a hp => ⟨rfl, rfl, fun hs => ?_⟩)
    simp [hs] at hp
  | paymentFailed attemptId code now =>
    simp only [paymentCreationFailureStatements, mem_cons, not_mem_nil, or_false] at hst
    subst hst
    refine .inr (.status _ _ (fun _ _ => rfl) fun s a hp => ⟨rfl, rfl, fun hs => ?_⟩)
    simp [hs] at hp
  | mutateWallet input user after _ _ _ _ => exact .inl (walletBatch_stmts _ _ _ _ st hst)
  | settleReward orderId now =>
    rw [mem_singleton.mp hst]
    exact .inl (.rewards _ _)
  | _ => exact hx.elim

theorem ShopBatch.stmts (h : ShopBatch S A x sts t) : ∀ st ∈ sts, ShopStmt x.isPayment x.isCheckout x.isMoney st := by
  intro st hst
  by_cases hx : x.isSide
  · exact .quiet _ (h.side hx st hst).quiet
  cases h with
  | orderPayment channelId event context order coupon fulfillment e _ _ _ hfulfills =>
    rw [orderPaymentBatch_eq] at hst
    rcases mem_append.mp hst with hst | hst
    · refine each_four ?_ ?_ ?_ ?_ _ hst
      · exact .quiet _ (.plain _ (.receipts _))
      · exact .quiet _ (.attempts _ (.status _ _ (fun _ _ => rfl) fun _ _ _ => ⟨rfl, rfl, fun _ => rfl⟩))
      · exact .orders _ _ (fun _ o => .paid _ _ o) (fun _ _ hp => orderCas_version hp)
          fun _ _ _ => ⟨by simp [paidOrder], fun _ => Or.inr trivial⟩
      · exact .quiet _ (.paymentEvent trivial _)
    · exact .quiet _ (afterPaymentEvent_stmts hfulfills st hst)
  | freeOrder order fulfillment e _ hfulfills =>
    simp only [freeOrderBatch, mem_append, mem_cons, not_mem_nil, or_false] at hst
    rcases hst with (rfl | rfl) | hst
    · refine .orders _ _ (fun _ o => .paid _ _ o) (fun s o hp => ?_) fun s o hp =>
        ⟨by simp [paidOrder], fun _ => Or.inl ?_⟩ <;> rw [Bool.and_eq_true] at hp
      · exact orderCas_version hp.1
      · rw [orderCas_status hp.1]
        rfl
    · refine .quiet _ (.events _ _ fun s ev hev => ?_)
      obtain ⟨o, -, rfl⟩ := mem_map.mp hev
      rfl
    · exact .quiet _ (settleStatements_stmts hfulfills st hst)
  | walletOrder w user fulfillment e _ _ hfulfills =>
    simp only [walletOrderBatch, walletSwaps, mem_append, mem_cons, not_mem_nil, or_false] at hst
    rcases hst with ((rfl | rfl | rfl) | rfl) | hst
    · exact .quiet _ (.plain _ (.users trivial _ _))
    · exact .quiet _ (.plain _ (.walletOn trivial _))
    · refine .orders _ _ (fun _ o => .paid _ _ o) (fun s o hp => ?_) fun s o hp =>
        ⟨by simp [paidOrder], fun _ => Or.inl ?_⟩ <;> rw [Bool.and_eq_true] at hp
      · exact orderCas_version hp.1
      · rw [orderCas_status hp.1]
        rfl
    · refine .quiet _ (.events _ _ fun s ev hev => ?_)
      obtain ⟨o, -, rfl⟩ := mem_map.mp hev
      rfl
    · exact .quiet _ (settleStatements_stmts hfulfills st hst)
  | expire orderId version now =>
    rcases mem_cons.mp hst with rfl | hst
    · refine .orders _ _ (fun _ o => .status _ _ _ o) (fun s o hp => ?_) fun _ _ _ =>
        ⟨by simp [setStatus], fun h => by cases h⟩
      rw [Bool.and_eq_true] at hp
      exact orderCas_version hp.1
    · exact .quiet _ (expireBatch_stmts orderId version now st hst)
  | transition order toStatus now _ _ hcan =>
    refine each_four ?_ ?_ ?_ ?_ _ hst
    · refine .orders _ _ (fun _ o => ?_) (fun s o hp => ?_) fun s o hp => ⟨?_, fun _ => Or.inl ?_⟩
      · split
        · exact .paid _ _ o
        · exact .status _ _ _ o
      · split <;> exact orderCas_version hp
      · split
        · simp [paidOrder]
        · exact (canTransition_spec hcan).2
      · rw [orderCas_status hp]
        exact (canTransition_spec hcan).1
    · refine .quiet _ (.events _ _ fun s ev hev => ?_)
      obtain ⟨o, -, rfl⟩ := mem_map.mp hev
      rfl
    · exact .quiet _ (.plain _ (.outbox _))
    · exact .quiet _ (.plain _ (.releaseSale _))
  | cancelUnstarted orderId now =>
    rw [mem_singleton.mp hst]
    exact .orders _ _ (fun _ _ => ⟨rfl, rfl, rfl, rfl⟩) (fun _ _ _ => rfl)
      fun _ _ _ => ⟨by simp [advanceOrder], fun h => by cases h⟩
  | checkout c customer capacity coupon _ _ _ => exact .quiet _ (checkout_stmts c capacity coupon st hst)
  | _ => exact absurd trivial hx

/-- The statements of a shop without admin transitions: a swap of a status finds the order unpaid. -/
inductive UnpaidStmt (paying ordering money : Prop) : Stmt Db → Prop
  | quiet (st : Stmt Db) (h : QuietStmt paying ordering money st) : UnpaidStmt paying ordering money st
  | swap (p : Db → ShopOrder → Bool) (f : Db → ShopOrder → ShopOrder) (hf : ∀ s o, (f s o).id = o.id)
      (hp : ∀ s o, p s o = true → o.status = .pendingPayment ∨ o.status = .expired) :
      UnpaidStmt paying ordering money (updateOrders p f)

theorem ShopBatch.unpaid (h : ShopBatch S (fun _ => False) x sts t) :
    ∀ st ∈ sts, UnpaidStmt x.isPayment x.isCheckout x.isMoney st := by
  intro st hst
  by_cases hx : x.isSide
  · exact .quiet _ (h.side hx st hst).quiet
  cases h with
  | orderPayment channelId event context order coupon fulfillment e _ _ hseen hfulfills =>
    rw [orderPaymentBatch_eq] at hst
    rcases mem_append.mp hst with hst | hst
    · refine each_four ?_ ?_ ?_ ?_ _ hst
      · exact .quiet _ (.plain _ (.receipts _))
      · exact .quiet _ (.attempts _ (.status _ _ (fun _ _ => rfl) fun _ _ _ => ⟨rfl, rfl, fun _ => rfl⟩))
      · refine .swap _ _ (fun _ _ => rfl) fun s o hp => ?_
        rw [orderCas_status hp]
        exact hseen.imp And.left And.left
      · exact .quiet _ (.paymentEvent trivial _)
    · exact .quiet _ (afterPaymentEvent_stmts hfulfills st hst)
  | freeOrder order fulfillment e _ hfulfills =>
    simp only [freeOrderBatch, mem_append, mem_cons, not_mem_nil, or_false] at hst
    rcases hst with (rfl | rfl) | hst
    · refine .swap _ _ (fun _ _ => rfl) fun s o hp => Or.inl ?_
      rw [Bool.and_eq_true] at hp
      exact orderCas_status hp.1
    · refine .quiet _ (.events _ _ fun s ev hev => ?_)
      obtain ⟨o, -, rfl⟩ := mem_map.mp hev
      rfl
    · exact .quiet _ (settleStatements_stmts hfulfills st hst)
  | walletOrder w user fulfillment e _ _ hfulfills =>
    simp only [walletOrderBatch, walletSwaps, mem_append, mem_cons, not_mem_nil, or_false] at hst
    rcases hst with ((rfl | rfl | rfl) | rfl) | hst
    · exact .quiet _ (.plain _ (.users trivial _ _))
    · exact .quiet _ (.plain _ (.walletOn trivial _))
    · refine .swap _ _ (fun _ _ => rfl) fun s o hp => Or.inl ?_
      rw [Bool.and_eq_true] at hp
      exact orderCas_status hp.1
    · refine .quiet _ (.events _ _ fun s ev hev => ?_)
      obtain ⟨o, -, rfl⟩ := mem_map.mp hev
      rfl
    · exact .quiet _ (settleStatements_stmts hfulfills st hst)
  | expire orderId version now =>
    rcases mem_cons.mp hst with rfl | hst
    · refine .swap _ _ (fun _ _ => rfl) fun s o hp => Or.inl ?_
      rw [Bool.and_eq_true] at hp
      exact orderCas_status hp.1
    · exact .quiet _ (expireBatch_stmts orderId version now st hst)
  | transition order toStatus now hA _ _ => exact hA.elim
  | cancelUnstarted orderId now =>
    rw [mem_singleton.mp hst]
    refine .swap _ _ (fun _ _ => rfl) fun s o hp => Or.inl ?_
    simp only [Bool.and_eq_true, beq_iff_eq] at hp
    exact hp.1.1.2
  | checkout c customer capacity coupon _ _ _ => exact .quiet _ (checkout_stmts c capacity coupon st hst)
  | _ => exact absurd trivial hx

end Stmts

/-! ## Orders only move forward -/

/-- An order later on: the version only grows, and while it stands so does the status. -/
structure OrderLater (o o' : ShopOrder) : Prop extends OrderMove o o' where
  version : o.version ≤ o'.version
  same : o'.version = o.version → o'.status = o.status

theorem OrderLater.refl (o : ShopOrder) : OrderLater o o :=
  ⟨⟨rfl, rfl, rfl, rfl⟩, Nat.le_refl _, fun _ => rfl⟩

theorem OrderLater.trans {a b c : ShopOrder} (h : OrderLater a b) (h' : OrderLater b c) : OrderLater a c where
  id := h'.id.trans h.id
  totalMinor := h'.totalMinor.trans h.totalMinor
  userId := h'.userId.trans h.userId
  email := h'.email.trans h.email
  version := Nat.le_trans h.version h'.version
  same hv := by
    have h1 := h.version
    have h2 := h'.version
    rw [h'.same (by omega), h.same (by omega)]

/-- Every order of `s` is there in `t`, at the same point or further on. -/
def OrdersKept (s t : Db) : Prop :=
  ∀ id o, s.orders.get? id = some o → ∃ o', t.orders.get? id = some o' ∧ OrderLater o o'

theorem OrdersKept.refl (s : Db) : OrdersKept s s := fun _ o ho => ⟨o, ho, .refl o⟩

theorem OrdersKept.trans (h : OrdersKept s t) (h' : OrdersKept t u) : OrdersKept s u := by
  intro id a ha
  obtain ⟨b, hb, hab⟩ := h id a ha
  obtain ⟨c, hc, hbc⟩ := h' id b hb
  exact ⟨c, hc, hab.trans hbc⟩

theorem OrdersKept.of_eq (h : t.orders = s.orders) : OrdersKept s t :=
  fun _ o ho => ⟨o, by rw [h]; exact ho, .refl o⟩

theorem orders_mapped {g : ShopOrder → ShopOrder} (h : t.orders.rows = s.orders.rows.map g)
    (hg : ∀ o, OrderLater o (g o)) : OrdersKept s t :=
  fun id o ho => ⟨g o, by rw [Table.get?_map h (fun r => (hg r).id), ho]; rfl, hg o⟩

theorem OrdersKept.status (h : OrdersKept s t) {id : Id} {o' : ShopOrder} (ho : s.orders.get? id = some o)
    (ho' : t.orders.get? id = some o') : OrderLater o o' := by
  obtain ⟨x, hx, hs⟩ := h id o ho
  rw [ho', some.injEq] at hx
  exact hx ▸ hs

theorem updateOrders_kept {p : Db → ShopOrder → Bool} {f : Db → ShopOrder → ShopOrder}
    (hf : ∀ s o, OrderMove o (f s o))
    (hv : ∀ s o, p s o = true → (f s o).version = o.version + 1) :
    Within OrdersKept (updateOrders p f) := by
  intro c s n s' h
  refine orders_mapped (updateOrders_rows (fun s o => (hf s o).id) h).2 fun o => ?_
  split
  · next hp =>
    have := hv s o hp
    exact ⟨hf s o, by omega, fun h => by omega⟩
  · exact .refl o

theorem keeps_orders (h : Keeps Db.orders st) : Within OrdersKept st :=
  fun c s n s' hs => .of_eq (h c s n s' hs)

theorem updateAttempts_ordersKept {p : Db → PaymentAttempt → Bool}
    {f : Db → PaymentAttempt → PaymentAttempt} : Within OrdersKept (updateAttempts p f) := by
  refine updateEach_within .refl (fun _ _ _ => .trans) (fun _ _ _ => forall_mem_nil _)
    (fun _ _ => keeps_orders (update_off rfl)) fun _ _ _ => each_if fun _ => each_two ?_ ?_
  · exact keeps_orders (updateHolds_keeps (by constructor <;> exact fun _ _ => rfl))
  · exact updateOrders_kept (fun _ _ => ⟨rfl, rfl, rfl, rfl⟩) fun _ _ _ => rfl

theorem AttemptStmt.ordersKept (h : AttemptStmt st) : Within OrdersKept st := by
  cases h with
  | status p f hf hp => exact updateAttempts_ordersKept
  | row p f hf hs => exact keeps_orders (update_off rfl)
  | new g hg => exact keeps_orders (insert_off rfl)

theorem QuietStmt.ordersKept (h : QuietStmt paying ordering money st) : Within OrdersKept st := by
  refine h.within (fun _ => keeps_orders)
    (fun _ h => keeps_orders (h.keeps (by constructor; constructor; all_goals exact fun _ _ => rfl)))
    (fun _ h => h.ordersKept)
    (fun _ p f hf hs c s n s' h => ?_) (fun _ g hg c s n s' h => ?_) (fun _ _ _ => keeps_orders (insert_off rfl))
    (fun _ _ => keeps_orders (insertRequired_off rfl)) (fun _ _ => rfl) (fun _ _ => rfl) fun _ _ => rfl
  · obtain ⟨-, t, ht, rfl⟩ := update_ok h
    refine orders_mapped ht fun o => ?_
    split
    · exact ⟨hf s o, Nat.le_of_eq (hs s o).2.symm, fun _ => (hs s o).1⟩
    · exact .refl o
  · obtain ⟨-, t, ht, rfl⟩ := insert_ok h
    exact fun id o ho => ⟨o, Table.get?_append ht ho, .refl o⟩

theorem ShopStmt.ordersKept (h : ShopStmt paying ordering money st) : Within OrdersKept st := by
  cases h with
  | quiet st h => exact h.ordersKept
  | orders p f hf hv hs => exact updateOrders_kept hf hv

theorem ShopBatch.ordersKept {τ : Type} {S : Spec Db Site τ} {A : ShopOrderStatus → Prop}
    (h : ShopBatch S A x sts t) (hb : batch sts 0 t = .ok (ns, u)) : OrdersKept t u :=
  batch_within .refl (fun _ _ _ => .trans) (fun st hst => (h.stmts st hst).ordersKept) hb

end Gmshop
