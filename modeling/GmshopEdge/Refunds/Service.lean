import GmshopEdge.Refunds.Split
import GmshopEdge.Fulfillment.RefundCancellation

/-!
# The refund service

`requestShopRefund`, `requestWalletShopRefund`, `refundAllocatedBalance`, `retryShopRefund`,
`processShopRefund`, `completeManualShopRefund` and what they share (`shop-payments/server/refunds.ts`
and `promotions/server/refunds.ts`), read by read and batch by batch.

What comes from outside the database (the clock, random ids, the payment provider's answer, whether
the credential can be decrypted) is an argument of each call. Audit rows are left out.
-/

namespace Gmshop

open Sql Stmt

/-! ## Shared pieces -/

def refundableStatus (st : ShopOrderStatus) : Bool :=
  st == .paid || st == .fulfilling || st == .completed || st == .failed

def reservedRefunds (s : Db) (orderId : Id) : List Refund :=
  s.refunds.rows.filter fun r => r.orderId == orderId && r.status.live

inductive RefundReport where
  | status (st : RefundStatus)
  | retrying
  deriving DecidableEq

structure RefundReply where
  id : Id
  report : RefundReport
  manualActionRequired : Bool := false
  duplicate : Bool := false
  deriving DecidableEq

def refundAmountInvalid : DomainError :=
  ⟨"refund_amount_invalid", 400, "Refund amount must be positive"⟩
def refundIdempotencyConflict : DomainError :=
  ⟨"refund_idempotency_conflict", 409, "Refund key belongs to another request"⟩
def refundOrderUnavailable (message : String) : DomainError :=
  ⟨"refund_order_unavailable", 409, message⟩
def refundPaymentAmountExceeded : DomainError :=
  ⟨"refund_payment_amount_exceeded", 409, "Converted refund exceeds the provider payment balance"⟩
def refundPaymentMissing : DomainError :=
  ⟨"refund_payment_missing", 409, "A completed payment is required"⟩
def refundNotFound : DomainError := ⟨"refund_not_found", 404, "Refund not found"⟩
def refundNotRetryable : DomainError := ⟨"refund_not_retryable", 409, "Refund is not retryable"⟩
def walletBalanceLimit : DomainError := ⟨"wallet_balance_limit", 409, "Balance limit exceeded"⟩
def walletConflict (message : String) : DomainError := ⟨"wallet_conflict", 409, message⟩
def paymentSecretUnavailable : DomainError :=
  ⟨"payment_secret_unavailable", 503, "Payment configuration unavailable"⟩
def agentFullRefundRequired : DomainError :=
  ⟨"agent_access_full_refund_required", 409, "Access orders require a full refund to revoke the qualification safely"⟩
def refundFundsNotReturned : DomainError :=
  ⟨"refund_funds_not_returned", 409, "Confirm that the customer received the refund before completion"⟩
def refundManualConfirmationUnavailable : DomainError :=
  ⟨"refund_manual_confirmation_unavailable", 409, "Refund does not require manual confirmation"⟩
def refundReferenceInvalid : DomainError :=
  ⟨"refund_reference_invalid", 400, "External refund reference is required"⟩

/-- Throw unless `p` holds. -/
def require {ℓ : Type} (p : Bool) (e : DomainError) : Call ℓ Unit :=
  if p then pure () else Prog.throw e

/-- The guard that `refundOutboxStatement` and its callers build. -/
structure RefundOutboxGuard where
  attempt : Nat
  status : RefundStatus
  nextAttemptAt : Option Time := none
  completedAt : Option Time := none

def refundOutboxStatement (refundId : Id) (eventType : OutboxType) (nextAttemptAt : Time)
    (attempt : Nat := 0) (guard : Option RefundOutboxGuard := none) : Stmt Db :=
  insert Db.outboxT .doNothing fun s =>
    (s.refunds.rows.filter fun r => r.id == refundId && match guard with
      | none => true
      | some g => r.attemptCount == g.attempt && r.status == g.status &&
          (g.nextAttemptAt.isNone || r.nextAttemptAt == g.nextAttemptAt) &&
          (g.completedAt.isNone || r.completedAt == g.completedAt)).map fun r =>
      { eventType := eventType, aggregateId := r.id
        idempotencyKey := .refund eventType refundId attempt, nextAttemptAt := some nextAttemptAt }

/-- The arguments of a refund request that come from outside the database. -/
structure RefundEnv where
  uuid : Id
  now : Time
  /-- `currencyDecimals` of the Intl tables. -/
  currencyDecimals : Nat → Nat
  /-- What `refundModeForCredential` says of the decrypted credential; false when it cannot be
  decrypted. -/
  credentialAutomatic : Bool

/-- `refundRequestSchema`, parsed. -/
structure RefundRequest where
  orderId : Id
  amountMinor : Minor
  idempotencyKey : Nat

/-! ## Refunding from the balance: `refundAllocatedBalance` -/

/-- The batch of `refundAllocatedBalance`; `revoke` are the entitlement statements of a full
refund. -/
def allocatedBatch (input : RefundRequest) (split : PromotionSplit) (id : Id) (now : Time)
    (revoke : List (Stmt Db)) : List (Stmt Db) :=
  let order := split.order
  let version := order.version + 1
  let status := if split.after = order.paidMinor then .refunded else order.status
  [updateOrders (fun _ o => orderCas order.id order.status order.version o)
      (fun _ o => setStatus status version now o),
    onChanges fun changes => insertRefund fun s =>
      if changes = 1 then s.fromOrder order.id (fun o => o.version == version) fun o =>
          { id := id, orderId := o.id, paymentAttemptId := none
            idempotencyKey := input.idempotencyKey, amountMinor := input.amountMinor
            paymentAmountMinor := input.amountMinor, orderStatusBefore := order.status
            status := .succeeded, completedAt := some now, cashReturnMinor := split.cash
            rewardReturnMinor := split.reward, referralReversalMinor := split.reversal }
      else [],
    insert Db.eventsT .abort fun s =>
      (s.refunds.rows.filter fun r => r.id == id).map fun r =>
        { orderId := r.orderId, eventType := .refundSucceeded
          fromStatus := if order.status = status then none else some order.status
          toStatus := if order.status = status then none else some status
          orderVersion := some version }] ++
    (if status = .refunded then revoke ++ cancelOpenFulfillmentStatements order.id else [])

/-- The entitlement statements of a full refund, read before its batch. -/
def revokeWhen (full : Prop) [Decidable full] (orderId : Id) (now : Time)
    (guard : Option RefundGuard) : Call Site (List (Stmt Db)) :=
  if full then refundEntitlementGrantStatements orderId now guard else pure []

def refundAllocatedBalance (input : RefundRequest) (split : PromotionSplit) (e : RefundEnv) :
    Call Site RefundReply := do
  let order := split.order
  require (refundableStatus order.status && split.external == 0)
    (refundOrderUnavailable "Order cannot be refunded from balance")
  let status := if split.after = order.paidMinor then ShopOrderStatus.refunded else order.status
  let revoke ← revokeWhen (status = .refunded) order.id e.now (some ⟨e.uuid, 0⟩)
  let results ← Prog.commit (.refundAllocatedBalance order.id order.status order.version
      { amountMinor := input.amountMinor, cashMinor := split.cash, rewardMinor := split.reward
        reversalMinor := split.reversal })
    (allocatedBatch input split e.uuid e.now revoke)
  require (1 ≤ results.headD 0) (orderVersionConflict "Order changed; retry refund")
  return { id := e.uuid, report := .status .succeeded }

/-! ## Refunding a wallet payment: `requestWalletShopRefund` -/

def walletOrder (s : Db) (orderId : Id) : Option (ShopOrder × User) := do
  let o ← s.orders.get? orderId
  let u ← o.userId.bind fun uid => s.users.get? uid
  if s.walletEntries.exist fun w =>
      w.sourceType == .shopOrder && w.sourceId == o.id && w.direction == .debit
  then some (o, u) else none

def walletRefundBatch (input : RefundRequest) (order : ShopOrder) (user : User) (available : Int)
    (reversal : Int) (id : Id) (now : Time) (revoke : List (Stmt Db)) : List (Stmt Db) :=
  let balanceAfter := user.balanceMinor + input.amountMinor
  let balanceVersion := user.balanceVersion + 1
  let orderVersion := order.version + 1
  let orderStatus := if (input.amountMinor : Int) = available then .refunded else order.status
  [update Db.usersT (fun s u => u.id == user.id && u.balanceVersion == user.balanceVersion &&
        s.orderIs order.id (orderCas order.id order.status order.version))
      (fun _ u => { u with balanceMinor := balanceAfter, balanceVersion := balanceVersion }),
    insert Db.walletEntriesT .abort fun s =>
      (s.users.rows.filter fun u => u.id == user.id && u.balanceVersion == balanceVersion &&
          u.balanceMinor == balanceAfter).map fun u =>
        { userId := u.id, direction := .credit, amountMinor := input.amountMinor
          balanceBeforeMinor := user.balanceMinor, balanceAfterMinor := u.balanceMinor
          sourceType := .refund, sourceId := order.id, idempotencyKey := .walletRefund id },
    updateOrders (fun s o => orderCas order.id order.status order.version o &&
        s.walletEntries.exist fun w => w.idempotencyKey == .walletRefund id)
      (fun _ o => setStatus orderStatus orderVersion now o),
    insertRefund fun s =>
      s.fromOrder order.id (fun o => o.version == orderVersion) fun o =>
        { id := id, orderId := o.id, paymentAttemptId := none
          idempotencyKey := input.idempotencyKey, amountMinor := input.amountMinor
          paymentAmountMinor := input.amountMinor, orderStatusBefore := order.status
          status := .succeeded, completedAt := some now, referralReversalMinor := reversal },
    insert Db.eventsT .abort fun s =>
      s.fromOrder order.id (fun o => o.version == orderVersion) fun o =>
        { orderId := o.id, eventType := .refundSucceeded, fromStatus := some order.status
          toStatus := some orderStatus, orderVersion := some o.version }] ++
    (if orderStatus = .refunded then revoke ++ cancelOpenFulfillmentStatements order.id else [])

def requestWalletShopRefund (input : RefundRequest) (e : RefundEnv) : Call Site RefundReply := do
  let row? ← Prog.query fun s => walletOrder s input.orderId
  match row? with
  | none => Prog.throw refundPaymentMissing
  | some (order, user) =>
    require (refundableStatus order.status) (refundOrderUnavailable "Order cannot be refunded")
    let reserved ← Prog.query fun s => reservedRefunds s order.id
    let available : Int := order.paidMinor - (reserved.map fun r => (r.amountMinor : Int)).sum
    require (decide ((input.amountMinor : Int) ≤ available))
      (refundAmountExceeded "Refund amount exceeds the refundable balance")
    let rewardSplit ← promotionRefundSplit input.orderId input.amountMinor
    require (decide (user.balanceMinor + input.amountMinor ≤ 9223372036854775807)) walletBalanceLimit
    let revoke ← revokeWhen ((input.amountMinor : Int) = available) order.id e.now none
    let results ← Prog.commit (.requestWalletShopRefund
        { orderId := order.id, orderStatus := order.status, orderVersion := order.version
          userId := user.id, balanceMinor := user.balanceMinor
          balanceVersion := user.balanceVersion, amountMinor := input.amountMinor
          fullRefund := (input.amountMinor : Int) == available
          reversalMinor := (rewardSplit.map (·.reversal)).getD 0 })
      (walletRefundBatch input order user available ((rewardSplit.map (·.reversal)).getD 0) e.uuid e.now revoke)
    require (1 ≤ results.headD 0) (walletConflict "Wallet changed; retry refund")
    return { id := e.uuid, report := .status .succeeded }

/-! ## Requesting a refund: `requestShopRefund` -/

/-- `assertAgentRefundAmount`: an access order is refunded in full or not at all. -/
def assertAgentRefundAmount (orderId : Id) (amountMinor : Minor) : Call Site Unit := do
  let row ← Prog.query fun s =>
    if s.items.exist fun i => i.orderId == orderId && s.agentOrders.exist fun a => a.orderItemId == i.id
    then (s.orders.get? orderId).map (·.paidMinor) else none
  require (row.all fun paidMinor => paidMinor == amountMinor) agentFullRefundRequired

/-- `ORDER BY updated_at DESC, id DESC LIMIT 1`. -/
def newestAttempt (xs : List PaymentAttempt) : Option PaymentAttempt :=
  xs.foldl (fun best a => match best with
    | none => some a
    | some b =>
      if b.updatedAt < a.updatedAt ∨ (b.updatedAt = a.updatedAt ∧ b.id < a.id) then some a
      else some b) none

def succeededAttempt (s : Db) (orderId : Id) : Option PaymentAttempt :=
  newestAttempt (s.attempts.rows.filter fun a => a.orderId == some orderId && a.status == .succeeded)

structure RefundableOrder where
  order : ShopOrder
  attempt : PaymentAttempt
  channel : PaymentChannel

def refundableOrder (s : Db) (orderId : Id) : Option RefundableOrder := do
  let order ← s.orders.get? orderId
  let attempt ← succeededAttempt s orderId
  let channel ← s.channels.get? attempt.channelId
  some ⟨order, attempt, channel⟩

/-- `refundMode` of the provider's adapter. -/
def PaymentProvider.refundManual : PaymentProvider → Bool
  | .cryptomus | .gmpay | .epay => true
  | .stripe | .alipayPage | .alipayWap | .wechatNative | .wechatH5 => false

/-- `resolveRefundMode(…) === 'manual'`; only the epay adapter looks at the credential. -/
def resolveRefundManual (channel : PaymentChannel) (credentialAutomatic : Bool) : Bool :=
  if channel.provider = .epay then channel.credentialEncrypted.isNone || !credentialAutomatic
  else channel.provider.refundManual

/-- The batch of `requestShopRefund`. -/
def requestBatch (input : RefundRequest) (o : RefundableOrder) (paymentAmount : Int)
    (split : Option PromotionSplit) (manual : Bool) (id : Id) (now : Time) : List (Stmt Db) :=
  let order := o.order
  let nextVersion := order.version + 1
  [updateOrders (fun _ x => orderCas order.id order.status order.version x)
      (fun _ x => setStatus .refunding nextVersion now x),
    onChanges fun changes => insertRefund fun s =>
      if changes = 1 then s.fromOrder order.id (fun x => x.status == .refunding && x.version == nextVersion) fun x =>
          { id := id, orderId := x.id, paymentAttemptId := some o.attempt.id
            idempotencyKey := input.idempotencyKey, amountMinor := input.amountMinor
            paymentAmountMinor := paymentAmount, orderStatusBefore := order.status
            status := if manual then .processing else .pending
            failureCode := if manual then some .manualActionRequired else none
            nextAttemptAt := some now }
      else [],
    insert Db.eventsT .abort fun s =>
      s.fromOrder order.id (fun x => x.status == .refunding && x.version == nextVersion) fun x =>
        { orderId := x.id, eventType := .refundRequested, fromStatus := some order.status
          toStatus := some .refunding, orderVersion := some nextVersion }] ++
    (if manual then [] else [refundOutboxStatement id .refundRequested now]) ++
    (match split with
      | none => []
      | some sp => [update Db.refundsT (fun _ r => r.id == id) fun _ r => { r with
          cashReturnMinor := sp.cash, rewardReturnMinor := sp.reward
          referralReversalMinor := sp.reversal }])

/-- `paymentAmount`: all that is left of the payment, or the amount in the payment's currency. -/
def refundPaymentAmount (input : RefundRequest) (split : Option PromotionSplit)
    (o : RefundableOrder) (available paymentAvailable : Int) (e : RefundEnv) :
    Except DomainError Int :=
  if (input.amountMinor : Int) = available then .ok paymentAvailable
  else (convertMinorAmount (match split with
      | some sp => if sp.allocated then sp.external else input.amountMinor
      | none => input.amountMinor)
    o.order.currencyDecimals o.attempt.rateUnits o.attempt.rateDecimals
    (e.currencyDecimals o.attempt.currency)
    (o.attempt.exchangeRateDirection == .divide)).map fun n => (n : Int)

/-- The part of `requestShopRefund` after the order was found refundable through its payment. -/
def requestPaymentRefund (input : RefundRequest) (split : Option PromotionSplit)
    (o : RefundableOrder) (e : RefundEnv) : Call Site RefundReply := do
  let order := o.order
  require (refundableStatus order.status) (refundOrderUnavailable "Order cannot be refunded")
  let reserved ← Prog.query fun s => reservedRefunds s order.id
  let available : Int := order.paidMinor - (reserved.map fun r => (r.amountMinor : Int)).sum
  require (decide ((input.amountMinor : Int) ≤ available))
    (refundAmountExceeded "Refund amount exceeds the refundable balance")
  let paymentAvailable : Int := o.attempt.amountMinor -
    (reserved.map fun r => if r.paymentAttemptId.isNone then 0 else r.paymentAmountMinor).sum
  match refundPaymentAmount input split o available paymentAvailable e with
  | .error err => Prog.throw err
  | .ok paymentAmount =>
    require (paymentAmount != 0 && decide (paymentAmount ≤ paymentAvailable)) refundPaymentAmountExceeded
    let manual := resolveRefundManual o.channel e.credentialAutomatic
    let results ← Prog.commit (.requestShopRefund order.id e.uuid)
      (requestBatch input o paymentAmount split manual e.uuid e.now)
    require (1 ≤ results.headD 0) (orderVersionConflict "Order changed; refresh and retry")
    return { id := e.uuid, report := .status (if manual then .processing else .pending)
             manualActionRequired := manual }

def requestShopRefund (input : RefundRequest) (e : RefundEnv) : Call Site RefundReply := do
  assertAgentRefundAmount input.orderId input.amountMinor
  require (input.amountMinor != 0) refundAmountInvalid
  let existing ← Prog.query fun s =>
    s.refunds.rows.find? fun r => r.idempotencyKey == input.idempotencyKey
  match existing with
  | some r =>
    require (r.orderId == input.orderId && r.amountMinor == input.amountMinor) refundIdempotencyConflict
    return { id := r.id, report := .status r.status, duplicate := true }
  | none =>
    let split ← promotionRefundSplit input.orderId input.amountMinor
    match split.filter fun sp => sp.allocated && sp.external == 0 with
    | some sp => refundAllocatedBalance input sp e
    | none =>
      let order? ← Prog.query fun s => refundableOrder s input.orderId
      match order? with
      | none => requestWalletShopRefund input e
      | some o => requestPaymentRefund input split o e

/-! ## Retrying: `retryShopRefund` -/

def retryBatch (refundId orderId : Id) (now : Time) : List (Stmt Db) :=
  [updateOrders (fun _ o => o.id == orderId && o.status != .refunding) (fun _ o => advanceOrder .refunding now o),
    updateRefunds (fun _ r => r.id == refundId && r.status == .failed)
      (fun _ r => { r with status := .pending, failureCode := none, nextAttemptAt := some now }),
    insert Db.outboxT .abort fun _ =>
      [{ eventType := .refundRequested, aggregateId := refundId
         idempotencyKey := .refundManualRetry refundId now, nextAttemptAt := some now }]]

def retryShopRefund (refundId : Id) (now : Time) : Call Site RefundReply := do
  let refund? ← Prog.query fun s => (s.refunds.get? refundId).filter fun r =>
    s.orders.exist fun o => o.id == r.orderId
  match refund? with
  | none => Prog.throw refundNotFound
  | some refund =>
    require (refund.status == .failed) refundNotRetryable
    let _ ← Prog.commit (.retryShopRefund refund.id) (retryBatch refund.id refund.orderId now)
    return { id := refund.id, report := .status .pending }

/-! ## Finishing a refund: `finalizeRefund` -/

/-- `RefundContext`: the refund row joined with its order and its payment channel. -/
structure RefundContext where
  refund : Refund
  paidMinor : Minor
  provider : PaymentProvider
  credentialEncrypted : Option Nat

def loadRefund (s : Db) (refundId : Id) : Option RefundContext := do
  let r ← s.refunds.get? refundId
  let o ← s.orders.get? r.orderId
  let pa ← r.paymentAttemptId.bind fun a => s.attempts.get? a
  let pc ← s.channels.get? pa.channelId
  some ⟨r, o.paidMinor, pc.provider, pc.credentialEncrypted⟩

def closeAfterSaleCase (refundId : Id) (attempt : Nat) (now : Time) (c : AfterSaleCase) : List (Stmt Db) :=
  [update Db.afterSalesT (fun s a => a.id == c.id && a.status == c.status &&
        completedRefund s refundId attempt .succeeded now)
      (fun _ a => { a with status := .closed, updatedAt := now }),
    insert Db.eventsT .abort fun s =>
      (s.afterSales.rows.filter fun a => a.id == c.id && a.status == .closed && a.updatedAt == now &&
          completedRefund s refundId attempt .succeeded now).map fun a =>
        { orderId := a.orderId, eventType := .afterSaleUpdated, fromStatus := none
          toStatus := none, orderVersion := none, afterSaleCaseId := some a.id },
    insert Db.outboxT .doNothing fun s =>
      (s.afterSales.rows.filter fun a => a.id == c.id && a.status == .closed && a.updatedAt == now).map fun a =>
        { eventType := .afterSaleUpdated, aggregateId := a.id
          idempotencyKey := .afterSaleRefund c.id refundId attempt, nextAttemptAt := some now }]

def closeRefundAfterSaleStatements (orderId refundId : Id) (attempt : Nat) (now : Time) :
    Call Site (List (Stmt Db)) := do
  let cases ← Prog.query fun s => s.afterSales.rows.filter fun a => a.orderId == orderId &&
    a.isRefund && (a.status == .open || a.status == .processing)
  return cases.flatMap (closeAfterSaleCase refundId attempt now)

/-- The row that `finalizeRefund` may still finish. -/
def finalizable (refundId : Id) (attempt : Nat) (r : Refund) : Bool :=
  r.id == refundId && (r.status == .processing || r.status == .failed) && r.attemptCount == attempt

def finishedRefund (status : RefundStatus) (failureCode : Option RefundFailure)
    (providerRefundId : Option ProviderRefundId) (now : Time) (r : Refund) : Refund :=
  { r with
    status := status, providerRefundId := providerRefundId, failureCode := failureCode
    nextAttemptAt := none, completedAt := some now }

/-- The batch of `finalizeRefund`; `close` are the statements of a full refund. -/
def finalizeBatch (refund : Refund) (status : RefundStatus) (failureCode : Option RefundFailure)
    (providerRefundId : Option ProviderRefundId) (attempt : Nat) (orderStatus : ShopOrderStatus) (now : Time)
    (close : List (Stmt Db)) : List (Stmt Db) :=
  [updateRefunds (fun _ r => finalizable refund.id attempt r)
      (fun _ r => finishedRefund status failureCode providerRefundId now r),
    updateOrders (fun s o => o.id == refund.orderId && completedRefund s refund.id attempt status now)
      (fun _ o => advanceOrder orderStatus now o),
    insert Db.eventsT .abort fun s =>
      s.fromOrder refund.orderId
        (fun o => o.status == orderStatus && completedRefund s refund.id attempt status now) fun o =>
        { orderId := o.id
          eventType := if status = .succeeded then .refundSucceeded else .refundFailed
          fromStatus := some .refunding, toStatus := some orderStatus
          orderVersion := some o.version },
    refundOutboxStatement refund.id (if status = .succeeded then .refundSucceeded else .refundFailed) now attempt
      (some { attempt := attempt, status := status, completedAt := some now })] ++ close

def fullRefundStatements (full : Prop) [Decidable full] (refund : Refund) (attempt : Nat)
    (now : Time) : Call Site (List (Stmt Db)) :=
  if full then do
    let revoke ← refundEntitlementGrantStatements refund.orderId now (some ⟨refund.id, attempt⟩)
    let closeCases ← closeRefundAfterSaleStatements refund.orderId refund.id attempt now
    return revoke ++ closeCases ++ cancelOpenFulfillmentStatements refund.orderId
  else pure []

def finalizeRefund (c : RefundContext) (status : RefundStatus) (failureCode : Option RefundFailure)
    (providerRefundId : Option ProviderRefundId) (attempt : Nat) (now : Time) : Call Site RefundReply := do
  let refund := c.refund
  let succeeded ← Prog.query fun s => s.refunds.rows.filter fun r =>
    r.orderId == refund.orderId && r.status == .succeeded && r.id != refund.id
  let refundedMinor := (succeeded.map (·.amountMinor)).sum + (if status = .succeeded then refund.amountMinor else 0)
  let orderStatus : ShopOrderStatus :=
    if status = .succeeded ∧ c.paidMinor ≤ refundedMinor then .refunded
    else refund.orderStatusBefore
  let close ← fullRefundStatements (status = .succeeded ∧ orderStatus = .refunded) refund attempt now
  let results ← Prog.commit (.finalizeRefund refund.id attempt status orderStatus)
    (finalizeBatch refund status failureCode providerRefundId attempt orderStatus now close)
  return { id := refund.id, report := .status status, duplicate := decide (results.headD 0 < 1) }

/-! ## Processing: `processShopRefund` -/

def refundProcessingLeaseMs : Nat := 120000

/-- The rows that `claimRefundAttempt` takes. -/
def claimable (refundId : Id) (attemptCount : Nat) (now : Time) (r : Refund) : Bool :=
  r.id == refundId && r.attemptCount == attemptCount &&
    (r.status == .pending || r.status == .processing || r.status == .failed) &&
    r.failureCode != some .manualActionRequired &&
    r.nextAttemptAt.all fun t => decide (t ≤ now)

def claimBatch (refundId : Id) (attemptCount : Nat) (now : Time) : List (Stmt Db) :=
  [updateRefunds (fun _ r => claimable refundId attemptCount now r) (fun _ r => { r with
      status := .processing, attemptCount := attemptCount + 1
      nextAttemptAt := some (now + refundProcessingLeaseMs) })]

/-- `claimRefundAttempt`: the attempt number, unless another call was first. -/
def claimRefundAttempt (refund : Refund) (now : Time) : Call Site (Option Nat) := do
  let results ← Prog.commit (.claimRefundAttempt refund.id refund.attemptCount now)
    (claimBatch refund.id refund.attemptCount now)
  return if results.headD 0 = 1 then some (refund.attemptCount + 1) else none

def scheduleBatch (refundId : Id) (providerRefundId : ProviderRefundId) (attempt : Nat) (now : Time) :
    List (Stmt Db) :=
  let nextAttemptAt := now + min 3600000 (30000 * 2 ^ min (attempt - 1) 6)
  [updateRefunds (fun _ r => r.id == refundId && r.status == .processing && r.attemptCount == attempt)
      (fun _ r => { r with
        status := .processing, providerRefundId := some providerRefundId
        nextAttemptAt := some nextAttemptAt, failureCode := none }),
    refundOutboxStatement refundId .refundCheck nextAttemptAt attempt
      (some { attempt := attempt, status := .processing, nextAttemptAt := some nextAttemptAt })]

def scheduleRefundCheck (refundId : Id) (providerRefundId : ProviderRefundId) (attempt : Nat) (now : Time) :
    Call Site RefundReply := do
  let results ← Prog.commit (.scheduleRefundCheck refundId) (scheduleBatch refundId providerRefundId attempt now)
  return { id := refundId, report := .status .processing
           duplicate := decide (results.headD 0 < 1) }

def providerFailureBatch (refundId : Id) (attempt : Nat) (now : Time) : List (Stmt Db) :=
  let nextAttemptAt := now + min 3600000 (10000 * 2 ^ (attempt - 1))
  [updateRefunds (fun _ r => r.id == refundId && r.status == .processing && r.attemptCount == attempt)
      (fun _ r => { r with
        status := .failed, failureCode := some .providerUnavailable
        nextAttemptAt := some nextAttemptAt }),
    refundOutboxStatement refundId .refundRequested nextAttemptAt attempt
      (some { attempt := attempt, status := .failed, nextAttemptAt := some nextAttemptAt })]

/-- `recordRefundProviderFailure`: four scheduled retries, then the refund fails. -/
def recordRefundProviderFailure (c : RefundContext) (attempt : Nat) (now : Time) : Call Site RefundReply := do
  if attempt < 5 then
    let results ← Prog.commit (.recordRefundProviderFailure c.refund.id)
      (providerFailureBatch c.refund.id attempt now)
    if results.headD 0 < 1 then
      return { id := c.refund.id, report := .status .failed, duplicate := true }
    else return { id := c.refund.id, report := .retrying }
  else finalizeRefund c .failed (some .providerUnavailable) c.refund.providerRefundId attempt now

def manualReconciliationBatch (refundId : Id) (attempt : Nat) : List (Stmt Db) :=
  [updateRefunds (fun _ r => r.id == refundId && r.status == .processing && r.attemptCount == attempt)
      (fun _ r => { r with
        status := .processing, failureCode := some .manualActionRequired, nextAttemptAt := none })]

def requireManualRefundReconciliation (c : RefundContext) (attempt : Nat) : Call Site RefundReply := do
  let results ← Prog.commit (.requireManualRefundReconciliation c.refund.id)
    (manualReconciliationBatch c.refund.id attempt)
  return { id := c.refund.id, report := .status .processing, manualActionRequired := true
           duplicate := decide (results.headD 0 ≠ 1) }

/-- What the provider's `queryRefund` or `refundPayment` ended in. -/
inductive ProviderAnswer where
  | pending (providerRefundId : ProviderRefundId)
  | succeeded (providerRefundId : ProviderRefundId) (failureCode : Option RefundFailure)
  | failed (providerRefundId : ProviderRefundId) (failureCode : Option RefundFailure)
  | cancelled (providerRefundId : ProviderRefundId) (failureCode : Option RefundFailure)
  | reconciliationRequired
  | error

structure ProcessRefundEnv where
  /-- The commerce secret is set and the credential decrypts to JSON. -/
  secretAvailable : Bool
  claimNow : Time
  answer : ProviderAnswer
  finishNow : Time

def settleProviderAnswer (c : RefundContext) (attempt : Nat) (answer : ProviderAnswer)
    (now : Time) : Call Site RefundReply :=
  match answer with
  | .pending pid => scheduleRefundCheck c.refund.id pid attempt now
  | .succeeded pid fc => finalizeRefund c .succeeded fc (some pid) attempt now
  | .failed pid fc => finalizeRefund c .failed fc (some pid) attempt now
  | .cancelled pid fc => finalizeRefund c .cancelled fc (some pid) attempt now
  | .reconciliationRequired => requireManualRefundReconciliation c attempt
  | .error => recordRefundProviderFailure c attempt now

def refundDuplicate (c : RefundContext) : Call Site RefundReply := do
  let current ← Prog.query fun s => loadRefund s c.refund.id
  return { id := c.refund.id
           report := .status ((current.map (·.refund.status)).getD c.refund.status)
           duplicate := true }

def processShopRefund (refundId : Id) (e : ProcessRefundEnv) : Call Site RefundReply := do
  let refund? ← Prog.query fun s => loadRefund s refundId
  match refund? with
  | none => Prog.throw refundNotFound
  | some c =>
    if c.refund.status = .succeeded ∨ c.refund.status = .cancelled then
      return { id := c.refund.id, report := .status c.refund.status, duplicate := true }
    else require (e.secretAvailable && c.credentialEncrypted.isSome) paymentSecretUnavailable
      let attempt? ← claimRefundAttempt c.refund e.claimNow
      match attempt? with
      | none => refundDuplicate c
      | some attempt => settleProviderAnswer c attempt e.answer e.finishNow

/-! ## Manual completion: `completeManualShopRefund` -/

def manualClaimBatch (refundId : Id) (attemptCount : Nat) : List (Stmt Db) :=
  [update Db.refundsT (fun _ r => r.id == refundId && r.status == .processing &&
      r.failureCode == some .manualActionRequired && r.attemptCount == attemptCount)
    (fun _ r => { r with attemptCount := attemptCount + 1 })]

/-- `reference` is the trimmed reference, or none where it is empty or too long; a manual
reference becomes the provider refund id. -/
def completeManualShopRefund (refundId : Id) (reference : Option Nat) (fundsReturned : Bool)
    (now : Time) : Call Site RefundReply := do
  require fundsReturned refundFundsNotReturned
  let refund? ← Prog.query fun s => loadRefund s refundId
  match refund? with
  | none => Prog.throw refundNotFound
  | some c =>
    if c.refund.status = .succeeded then
      return { id := c.refund.id, report := .status .succeeded, duplicate := true }
    else require (c.provider.refundManual && c.refund.status == .processing &&
        c.refund.failureCode == some .manualActionRequired) refundManualConfirmationUnavailable
      match reference with
      | none => Prog.throw refundReferenceInvalid
      | some ref =>
        let attempt := c.refund.attemptCount + 1
        let results ← Prog.commit (.completeManualShopRefund c.refund.id)
          (manualClaimBatch c.refund.id c.refund.attemptCount)
        if results.headD 0 = 1 then finalizeRefund c .succeeded none (some (.manual ref)) attempt now
        else refundDuplicate c

end Gmshop
