import GmshopEdge.Payments.Fulfillment
import GmshopEdge.Wallet.Ledger

/-!
# Payment events

`processShopPaymentEvent` (`shop-payments/server/service.ts`) with its two callers, the webhook and
the reconciliation. An event is recorded by a receipt in the same batch that acts on it, and an event
that has a receipt is answered from it.

What the provider's adapter makes of a request or a query, the clock and the random ids are arguments.
-/

namespace Gmshop

open Sql Stmt

/-! ## Events and receipts -/

/-- An amount as the provider writes it: `units / 10 ^ decimals`, or text that is no decimal. -/
inductive DecimalText where
  | malformed
  | decimal (units decimals : Nat)

/-- `PaymentWebhookEvent`. -/
structure PaymentEvent where
  providerEventId : PaymentEventKey
  providerPaymentId : ProviderPaymentId
  type : PaymentEventType
  amountMinor : Option Minor := none
  amountDecimal : Option DecimalText := none
  currency : Option Nat := none
  merchantOrderId : Option MerchantOrderId := none
  payloadDigest : Nat

inductive PaymentReport where
  | processed | rejected | pending | expired | failed | succeeded | reconciliationRequired
  | order (status : ShopOrderStatus)
  deriving DecidableEq

structure PaymentReply where
  duplicate : Bool
  status : PaymentReport
  deriving DecidableEq

def ReceiptStatus.report : ReceiptStatus → PaymentReport
  | .processed => .processed
  | .rejected => .rejected

def findPaymentReplayReceipt (s : Db) (channelId : Id) (externalId : PaymentEventKey) : Option ReplayReceipt :=
  s.receipts.rows.find? fun r => r.channelId == channelId && r.externalId == externalId

def paymentReplayConflict : DomainError :=
  ⟨"payment_replay_conflict", 409, "Payment event identifier was reused with different content"⟩

def presentPaymentReplayReceipt (receipt : ReplayReceipt) (event : PaymentEvent) : Except DomainError PaymentReply :=
  if receipt.eventType ≠ event.type ∨ receipt.payloadDigest ≠ event.payloadDigest then .error paymentReplayConflict
  else .ok { duplicate := true, status := receipt.status.report }

def paymentEventStatement (channelId attemptId : Id) (event : PaymentEvent) (status : ReceiptStatus) : Stmt Db :=
  insert Db.receiptsT .abort fun _ =>
    [{ channelId := channelId, paymentAttemptId := attemptId, externalId := event.providerEventId
       eventType := event.type, payloadDigest := event.payloadDigest, status := status }]

/-- `runPaymentEventBatch`: the change counts, or the receipt that made the batch fail. -/
def runPaymentEventBatch (site : Site) (channelId : Id) (event : PaymentEvent)
    (statements : List (Stmt Db)) : Call Site (ReplayReceipt ⊕ List Nat) :=
  Prog.tryCatch (do
    let results ← Prog.commit site statements
    return .inr results)
    fun err => do
      let duplicate ← Prog.query fun s => findPaymentReplayReceipt s channelId event.providerEventId
      match duplicate with
      | some receipt => return .inl receipt
      | none => Prog.fail err

def recordPaymentEvent (site : Site) (channelId : Id) (event : PaymentEvent)
    (statements : List (Stmt Db)) (reply : List Nat → Except DomainError PaymentReply) :
    Call Site PaymentReply := do
  let result ← runPaymentEventBatch site channelId event statements
  match result with
  | .inl receipt => liftExcept (presentPaymentReplayReceipt receipt event)
  | .inr results => liftExcept (reply results)

/-! ## The payment an event is about -/

structure PaymentContext where
  attempt : PaymentAttempt
  order : Option ShopOrder
  topup : Option WalletTopup

/-- `provider_payment_id LIKE '%:' || ?`. -/
def ProviderPaymentId.endsWith (merchantOrderId : MerchantOrderId) : ProviderPaymentId → Bool
  | .provider _ => false
  | .merchant _ m => m == merchantOrderId

def loadPaymentContext (s : Db) (channelId : Id) (providerPaymentId : ProviderPaymentId)
    (merchantOrderId : Option MerchantOrderId) : Option PaymentContext := do
  let _ ← s.channels.get? channelId
  let a ← s.attempts.rows.find? fun a => a.channelId == channelId &&
    a.providerPaymentId.any fun p => p == providerPaymentId || merchantOrderId.any fun m => p.endsWith m
  some { attempt := a, order := a.orderId.bind s.orders.get?, topup := a.walletTopupId.bind s.topups.get? }

/-- `decimalToMinor`; digits beyond the currency's may only be zeros. -/
def decimalToMinor (amount : DecimalText) (decimals : Nat) : Option Minor :=
  match amount with
  | .malformed => none
  | .decimal units d =>
    if d ≤ decimals then some (units * 10 ^ (decimals - d))
    else if units % 10 ^ (d - decimals) = 0 then some (units / 10 ^ (d - decimals))
    else none

def PaymentContext.merchantOrderIds (context : PaymentContext) : List MerchantOrderId :=
  [.attempt context.attempt.id, .epusdt context.attempt.id] ++
    (context.order.map fun o => .orderNumber o.orderNumber).toList

def validateEventMoney (context : PaymentContext) (event : PaymentEvent) : Except DomainError Unit :=
  let decimalMinor := event.amountDecimal.map fun d =>
    decimalToMinor d context.attempt.currencyDecimals
  if event.type ≠ .succeeded then .ok ()
  else if decimalMinor = some none ∨ (event.amountMinor = none ∧ decimalMinor = none) ∨
      (∃ m ∈ event.amountMinor, m ≠ context.attempt.amountMinor) ∨
      (∃ m ∈ decimalMinor, m ≠ some context.attempt.amountMinor) ∨
      (∃ c ∈ event.currency, c ≠ context.attempt.currency) ∨
      (∃ m ∈ event.merchantOrderId, m ∉ context.merchantOrderIds) then
    .error ⟨"payment_amount_mismatch", 400, "Payment amount mismatch"⟩
  else .ok ()

/-- The reserve or the personal coupon that paid a part of the order was given back. -/
def fundingReleased (s : Db) (orderId : Id) : Bool :=
  (s.holds.exist fun h => h.orderId == orderId && h.state == .released) ||
    s.redemptions.exist fun cr => cr.orderId == orderId && cr.status == .released &&
      s.coupons.exist fun c => c.id == cr.couponId && c.purpose == .recall

/-- `loadReleasedCouponUse`: the coupon an expired order has to claim again, and whether it can. -/
def loadReleasedCouponUse (s : Db) (orderId : Id) : Option (Id × Bool) := do
  let cr ← s.redemptions.rows.find? fun cr => cr.orderId == orderId && cr.status == .released
  let c ← s.coupons.get? cr.couponId
  let customerUses := s.redemptions.count fun other => other.couponId == cr.couponId &&
    other.id != cr.id && (other.status == .reserved || other.status == .consumed) &&
    (match cr.userId with
      | some u => other.userId == some u
      | none => other.normalizedEmail == cr.normalizedEmail)
  some (cr.couponId, c.usageLimit.all (fun l => decide (c.usedCount < l)) &&
    c.usageLimitPerCustomer.all fun l => decide (customerUses < l))

/-! ## Paying an order -/

structure PaymentEnv where
  now : Time
  ids : Id → ItemIds

def paidOrder (version : Nat) (now : Time) (o : ShopOrder) : ShopOrder :=
  { o with status := .paid, paidMinor := o.totalMinor, version := version, updatedAt := now }

/-- `status = 'paid' AND version = ?`: the swap of this batch, or an equal one, has hit. -/
def paidAt (version : Nat) (o : ShopOrder) : Bool := o.status == .paid && o.version == version

/-- The `shop_order.paid` outbox row. -/
def paidOutboxStatement (orderId : Id) (version : Nat) : Stmt Db :=
  insert Db.outboxT .abort fun s => s.fromOrder orderId (paidAt version) fun o =>
    { eventType := .shopOrderPaid, aggregateId := o.id
      idempotencyKey := .shopOrderPaid orderId version }

/-- `coupon_redemptions` become `consumed`. -/
def consumeRedemptionStatement (orderId : Id) (open' : RedemptionStatus → Bool) : Stmt Db :=
  update Db.redemptionsT (fun _ cr => cr.orderId == orderId && open' cr.status)
    (fun _ cr => { cr with status := .consumed })

/-- The coupon use an expired order had lost is claimed again, or the batch aborts. -/
def reclaimCouponStatements (orderId : Id) (version : Nat) (couponId : Id) : List (Stmt Db) :=
  [update Db.couponsT (fun s c => c.id == couponId && c.usageLimit.all (fun l => decide (c.usedCount < l)) &&
        s.orderIs orderId (paidAt version))
      (fun _ c => { c with usedCount := c.usedCount + 1 }),
    abortWhen (fun changes _ => changes != 1) "coupon_reclaim_conflict"]

def orderPaymentBatch (channelId : Id) (attemptId : Id) (event : PaymentEvent) (order : ShopOrder)
    (coupon : Option Id) (fulfillment : List (Stmt Db)) (now : Time) : List (Stmt Db) :=
  [paymentEventStatement channelId attemptId event .processed, updateAttempts (fun _ a => a.id == attemptId &&
        (a.status == .created || a.status == .pending || a.status == .expired))
      (fun _ a => { a with status := .succeeded, updatedAt := now, failureCode := none }),
    updateOrders (fun _ o => orderCas order.id order.status order.version o)
      (fun _ o => paidOrder (order.version + 1) now o),
    -- a lost swap leaves the event without its order, which aborts the batch
    insertRequired Db.eventsT fun s =>
      (s.fromOrder order.id (paidAt (order.version + 1)) fun o =>
        { orderId := o.id, eventType := .paymentSucceeded, fromStatus := some order.status
          toStatus := some .paid, orderVersion := some (order.version + 1) }).head?] ++
    ((coupon.map (reclaimCouponStatements order.id (order.version + 1))).getD []) ++
    fulfillment ++
    [consumeRedemptionStatement order.id fun st => st == .reserved || st == .released,
      paidOutboxStatement order.id (order.version + 1)]

/-- Hold the payment of `attemptId` for review. -/
def rejectBatch (channelId attemptId : Id) (event : PaymentEvent) (code : AttemptFailure)
    (now : Time) : List (Stmt Db) :=
  [paymentEventStatement channelId attemptId event .rejected, update Db.attemptsT (fun _ a => a.id == attemptId)
      (fun _ a => { a with failureCode := some code, updatedAt := now })]

/-- The coupon an order has to claim again: only an expired one lost it. -/
def releasedCoupon (order : ShopOrder) : Call Site (Option (Id × Bool)) :=
  if order.status = .expired then Prog.query fun s => loadReleasedCouponUse s order.id
  else pure none

def payOrder (channelId attemptId : Id) (event : PaymentEvent) (order : ShopOrder) (e : PaymentEnv) :
    Call Site PaymentReply :=
  if ¬(order.status = .pendingPayment ∨ order.status = .expired) then
    Prog.throw ⟨"order_not_payable", 409, "Order cannot accept payment"⟩
  else do
    let coupon ← releasedCoupon order
    if coupon.any (fun c => !c.2) then
      recordPaymentEvent (.paymentEvent attemptId) channelId event
        (rejectBatch channelId attemptId event .couponReclaimRequired e.now)
        fun _ => .ok { duplicate := false, status := .reconciliationRequired }
    else
      let items ← Prog.query fun s => orderItemsForFulfillment s order.id
      let fulfillment ← liftExcept (orderFulfillmentStatements order.id items e.ids e.now)
      recordPaymentEvent (.orderPayment attemptId order.id order.status order.version) channelId event
        (orderPaymentBatch channelId attemptId event order (coupon.map (·.1)) fulfillment e.now)
        fun results =>
          if (results[2]?).getD 0 < 1 then .error (orderVersionConflict "Order changed; retry event")
          else .ok { duplicate := false, status := .succeeded }

/-! ## Other events -/

def payTopup (channelId attemptId : Id) (event : PaymentEvent) (topup : WalletTopup)
    (e : PaymentEnv) : Call Site PaymentReply :=
  if topup.status ≠ .pending then
    Prog.throw ⟨"topup_not_payable", 409, "Top-up cannot accept payment"⟩
  else do
    let _ ← mutateWallet
      { userId := topup.userId, direction := .credit, amountMinor := topup.amountMinor
        sourceType := .topup, sourceId := topup.id, idempotencyKey := .topup topup.id }
    recordPaymentEvent (.topupPaid channelId topup.id event.providerEventId) channelId event
      [paymentEventStatement channelId attemptId event .processed,
        updateAttempts (fun _ a => a.id == attemptId &&
            (a.status == .created || a.status == .pending))
          (fun _ a => { a with status := .succeeded, updatedAt := e.now, failureCode := none }),
        update Db.topupsT (fun _ t => t.id == topup.id && t.status == .pending)
          (fun _ t => { t with status := .paid })]
      fun _ => .ok { duplicate := false, status := .succeeded }

def failedPaymentBatch (channelId : Id) (attempt : PaymentAttempt) (event : PaymentEvent)
    (now : Time) : List (Stmt Db) :=
  [paymentEventStatement channelId attempt.id event .processed, updateAttempts (fun _ a => a.id == attempt.id &&
        (a.status == .created || a.status == .pending))
      (fun _ a => { a with
        status := if event.type = .expired then .expired else .failed, updatedAt := now
        failureCode := some (.event event.type) })] ++
    (attempt.walletTopupId.map fun topupId =>
      update Db.topupsT (fun _ t => t.id == topupId && t.status == .pending)
        (fun _ t => { t with status := if event.type = .expired then .expired else .failed })).toList

def settleEvent (channelId : Id) (event : PaymentEvent) (context : PaymentContext)
    (e : PaymentEnv) : Call Site PaymentReply :=
  let attempt := context.attempt
  if attempt.status = .succeeded then recordPaymentEvent (.paymentEvent attempt.id) channelId event
      [paymentEventStatement channelId attempt.id event .processed]
      fun _ => .ok { duplicate := true, status := .processed }
  else match event.type with
    | .pending =>
      recordPaymentEvent (.paymentEvent attempt.id) channelId event
        [paymentEventStatement channelId attempt.id event .processed]
        fun _ => .ok { duplicate := false, status := .pending }
    | .succeeded => match context.topup, context.order with
      | some topup, _ => payTopup channelId attempt.id event topup e
      | none, some order => payOrder channelId attempt.id event order e
      | none, none =>
        Prog.throw ⟨"payment_subject_invalid", 409, "Payment subject is invalid"⟩
    | type =>
      recordPaymentEvent (.failedPayment attempt.id attempt.walletTopupId) channelId event
        (failedPaymentBatch channelId attempt event e.now)
        fun _ => .ok { duplicate := false, status := if type = .expired then .expired else .failed }

def releasedFunding (event : PaymentEvent) (context : PaymentContext) : Call Site Bool :=
  match event.type, context.order with
  | .succeeded, some order => Prog.query fun s => fundingReleased s order.id
  | _, _ => pure false

def processShopPaymentEvent (channelId : Id) (event : PaymentEvent) (e : PaymentEnv) : Call Site PaymentReply := do
  let duplicate ← Prog.query fun s => findPaymentReplayReceipt s channelId event.providerEventId
  match duplicate with
  | some receipt => liftExcept (presentPaymentReplayReceipt receipt event)
  | none =>
    let context? ← Prog.query fun s =>
      loadPaymentContext s channelId event.providerPaymentId event.merchantOrderId
    match context? with
    | none => Prog.throw ⟨"payment_attempt_not_found", 404, "Payment attempt not found"⟩
    | some context =>
      liftExcept (validateEventMoney context event)
      let released ← releasedFunding event context
      if released then
        let _ ← runPaymentEventBatch (.paymentEvent context.attempt.id) channelId event
          (rejectBatch channelId context.attempt.id event .paymentReconciliationRequired e.now)
        return { duplicate := false, status := .reconciliationRequired }
      else settleEvent channelId event context e

/-! ## The callers -/

/-- `handleShopPaymentWebhook`; `parsed` is what the provider's adapter makes of the request. -/
def handleShopPaymentWebhook (channelId : Id) (parsed : Except DomainError PaymentEvent)
    (e : PaymentEnv) : Call Site PaymentReply := do
  let channel ← Prog.query fun s => (s.channels.get? channelId).filter (·.enabled)
  match channel with
  | none => Prog.throw ⟨"payment_channel_not_found", 404, "Payment channel not found"⟩
  | some _ =>
    let event ← liftExcept parsed
    processShopPaymentEvent channelId event e

/-- What the provider answers to `queryPayment`. -/
inductive PaymentQuery where
  | open'
  | succeeded (amountMinor : Option Minor) (currency : Option Nat)

/-- `reconcilePaymentAttempt`; the attempt is the row the caller has read. -/
def reconcilePaymentAttempt (attempt : PaymentAttempt) (providerPaymentId : ProviderPaymentId)
    (answer : Except DomainError PaymentQuery) (e : PaymentEnv) : Call Site PaymentReply := do
  let query ← liftExcept answer
  match query with
  | .open' =>
    let _ ← Prog.commit (.reconcilePayment attempt.id)
      [update Db.attemptsT (fun _ a => a.id == attempt.id &&
          (a.status == .pending || a.status == .expired))
        (fun _ a => { a with updatedAt := e.now })]
    return { duplicate := false, status := .pending }
  | .succeeded amountMinor currency =>
    let _ ← processShopPaymentEvent attempt.channelId
      { providerEventId := .reconcile attempt.channelId attempt.id
        providerPaymentId := providerPaymentId, type := .succeeded
        amountMinor := some (amountMinor.getD attempt.amountMinor)
        currency := some (currency.getD attempt.currency), payloadDigest := attempt.id } e
    return { duplicate := false, status := .succeeded }

end Gmshop
