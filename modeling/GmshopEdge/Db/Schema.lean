import GmshopEdge.Lib.Interleave

/-!
# The database

The tables the order, payment, refund and fulfilment code reads and writes, with the columns that
code uses and the constraints declared for them (drizzle migrations and `src/db/schema`).

* Ids, times and minor-unit amounts are natural numbers; a balance that can be debited is an
  integer, so that the CHECK which keeps it non-negative is visible.
* Idempotency keys are built from other values by string templates with distinct prefixes; each
  template is one constructor here.
* Rows that no statement looks up by id (events, outbox and wallet entries) carry no id column.
-/

namespace Gmshop

open Sql Table

abbrev Id := Nat
abbrev Time := Nat
abbrev Minor := Nat

/-- Currencies are numbered; this one is `CNY`. -/
def cny : Nat := 0

/-! ## Enumerations -/

/-- `shopOrderStatuses`. -/
inductive ShopOrderStatus where
  | pendingPayment | paid | fulfilling | completed | cancelled | expired | refunding | refunded
  | failed
  deriving DecidableEq

inductive RefundStatus where
  | pending | processing | succeeded | failed | cancelled
  deriving DecidableEq

/-- `status IN ('pending', 'processing', 'succeeded')`: the refunds that count against an order. -/
def RefundStatus.live (st : RefundStatus) : Bool :=
  st == .pending || st == .processing || st == .succeeded

inductive AttemptStatus where
  | created | pending | succeeded | failed | cancelled | expired
  deriving DecidableEq

inductive DeliveryStatus where
  | awaitingSupply | pending | processing | delivered | failed
  deriving DecidableEq

inductive StockStatus where
  | available | reserved | delivered | disabled
  deriving DecidableEq

inductive ComponentType where
  | stock | download | automation
  deriving DecidableEq

inductive HoldState where
  | held | consumed | released
  deriving DecidableEq

inductive RewardState where
  | pending | available | reversed
  deriving DecidableEq

inductive RedemptionStatus where
  | reserved | consumed | released
  deriving DecidableEq

inductive CouponPurpose where
  | standard | referral | recall
  deriving DecidableEq

inductive GrantStatus where
  | pending | active | refunded | revoked
  deriving DecidableEq

inductive EntitlementStatus where
  | pending | active | expired | exhausted | revoked
  deriving DecidableEq

inductive AfterSaleStatus where
  | «open» | processing | resolved | rejected | closed
  deriving DecidableEq

/-- `product_sellable_items.fulfillment_source`. -/
inductive FulfillmentSource where
  | «local» | manual | supplier
  deriving DecidableEq

inductive SupplierOrderState where
  | pending | selecting | submitting | uncertain | supplied | failed | refunded
  deriving DecidableEq

/-- `supplier_api_orders.state`. -/
inductive ApiOrderState where
  | processing | supplied | cancelled | failed | refunded
  deriving DecidableEq

inductive AgentAccessState where
  | pending | active | revoked | cancelled
  deriving DecidableEq

inductive UpgradeState where
  | pending | delivered | needsReview | cancelled
  deriving DecidableEq

inductive AgentAccessKind where
  | subsite | api
  deriving DecidableEq

/-- `paymentProviderValues`. -/
inductive PaymentProvider where
  | stripe | cryptomus | gmpay | epay | alipayPage | alipayWap | wechatNative | wechatH5
  deriving DecidableEq

inductive RateDirection where
  | parity | multiply | divide
  deriving DecidableEq

inductive WalletDirection where
  | credit | debit
  deriving DecidableEq

inductive OutboxStatus where
  | pending | processing | published | failed
  deriving DecidableEq

inductive TopupStatus where
  | pending | paid | failed | expired | refunded
  deriving DecidableEq

/-- The statuses that `replay_receipts` rows of payment events are written with. -/
inductive ReceiptStatus where
  | processed | rejected

/-- `PaymentWebhookEvent.type`. -/
inductive PaymentEventType where
  | pending | succeeded | failed | expired
  deriving DecidableEq

/-- `automation_jobs.status`. -/
inductive JobStatus where
  | queued | dispatching | running | succeeded | failed | cancelled | expired
  deriving DecidableEq

/-- `automation_jobs.provider`. -/
inductive BuildProvider where
  | githubActions | gitlabCi
  deriving DecidableEq

/-! ## Keys and codes -/

/-- `refunds.failure_code`. -/
inductive RefundFailure where
  | manualActionRequired
  | providerUnavailable
  | provider (code : Nat)
  deriving DecidableEq

/-- `refunds.provider_refund_id`: the provider's, or `manual:` and the reference. -/
inductive ProviderRefundId where
  | provider (id : Nat)
  | manual (reference : Nat)
  deriving DecidableEq

/-- The merchant order ids an event is checked against: the attempt's id, the same as the gateways
shorten it, the order number, or anything else. -/
inductive MerchantOrderId where
  | attempt (attemptId : Id)
  | epusdt (attemptId : Id)
  | orderNumber (number : Nat)
  | other (key : Nat)
  deriving DecidableEq

/-- `payment_attempts.provider_payment_id`: the provider's id, or one that ends in `:` and a merchant
order id. -/
inductive ProviderPaymentId where
  | provider (id : Nat)
  | merchant (id : Nat) (orderId : MerchantOrderId)
  deriving DecidableEq

/-- `replay_receipts.external_id`: the provider's, or that of a reconciliation. -/
inductive PaymentEventKey where
  | provider (id : Nat)
  | reconcile (channelId attemptId : Id)
  deriving DecidableEq

/-- `payment_attempts.failure_code`. -/
inductive AttemptFailure where
  | event (type : PaymentEventType)
  | orderExpired
  | paymentReconciliationRequired
  | couponReclaimRequired
  | creation (code : String)
  deriving DecidableEq

/-- `delivery_records.error_code`. -/
inductive DeliveryError where
  | orderRefunded | orderNotDeliverable | inventoryUnavailable | downloadUnavailable
  | supplierApiCancelled
  | thrown (code : String)
  deriving DecidableEq

/-- `delivery_records.request_key`. -/
inductive RequestKey where
  | initial (itemId : Id)
  | other (key : Nat)
  deriving DecidableEq

/-- `outbox_events.event_type`. -/
inductive OutboxType where
  | refundRequested | refundCheck | refundSucceeded | refundFailed | afterSaleUpdated
  | shopOrderPaid | shopOrderStatusChanged | deliveryRequested | deliveryReady | supplierRequested
  | automationRequested | automationSucceeded | automationFailed
  deriving DecidableEq

/-- `outbox_events.idempotency_key`, one constructor for each template. -/
inductive OutboxKey where
  | refund (eventType : OutboxType) (refundId : Id) (attempt : Nat)
  | refundManualRetry (refundId : Id) (now : Time)
  | afterSaleRefund (caseId refundId : Id) (attempt : Nat)
  | shopOrderPaid (orderId : Id) (version : Nat)
  | shopOrderStatus (orderId : Id) (version : Nat)
  | deliveryInitial (deliveryId : Id)
  | deliveryRetry (deliveryId : Id) (attempt : Nat)
  | deliveryReady (deliveryId : Id)
  | supplierInitial (supplierOrderId : Id)
  | automationRequested (jobId : Id)
  | automationRetry (jobId : Id) (now : Time)
  | automationCallback (jobId : Id) (status : JobStatus)
  | other (key : Nat)
  deriving DecidableEq

/-- `wallet_entries.idempotency_key`. -/
inductive WalletKey where
  | balanceHold (orderId : Id)
  | balanceRelease (orderId : Id)
  | balanceRefund (refundId : Id)
  | walletRefund (refundId : Id)
  | shopOrder (orderId : Id)
  | topup (topupId : Id)
  | supplierApiCancel (apiOrderId : Id)
  | other (key : Nat)
  deriving DecidableEq

/-- `reward_entries.idempotency_key`. -/
inductive RewardKey where
  | hold (orderId : Id)
  | release (orderId : Id)
  | refund (refundId : Id)
  | reversal (refundId : Id)
  | earned (orderId : Id)
  deriving DecidableEq

/-- `wallet_entries.source_type`. -/
inductive WalletSource where
  | topup | adjustment | shopOrder | supplierOrder | refund
  deriving DecidableEq

/-- `shop_order_events.event_type`. -/
inductive OrderEventType where
  | refundRequested | refundSucceeded | refundFailed | afterSaleUpdated | deliveryProgressed
  | fulfillmentStarted | orderCreated | orderExpired | paymentSucceeded | paymentNotRequired
  | walletPaymentSucceeded | statusChanged | automationCancelled | automationRetried
  | automationSucceeded | automationFailed | supplierApiOrderCreated
  deriving DecidableEq

/-- `automation_jobs.provider_job_id`: a run of the provider, or the job's own id, which stands in for
the run that GitHub does not name when it accepts one. -/
inductive ProviderJobId where
  | job (jobId : Id)
  | run (run : Nat)
  deriving DecidableEq

/-- `entitlement_events.event_type` of the `usage` events. -/
inductive UsageEventType where
  | consumed | restored
  deriving DecidableEq

/-- `entitlement_events.idempotency_key`. -/
inductive UsageKey where
  | automation (jobId : Id)
  | automationRestore (jobId : Id) (now : Time)
  | automationReconsume (jobId : Id) (now : Time)
  deriving DecidableEq

/-- The text of a stock entry: the one it was imported with, or the one it was converted to. -/
structure StockCode where
  entryId : Id
  converted : Bool
  deriving DecidableEq

/-- `delivery_records.content_encrypted`: the codes of stock entries, one a line, or another text. -/
inductive DeliveryContent where
  | codes (cs : List StockCode)
  | text (key : Nat)
  deriving DecidableEq

/-- The namespaces of `replay_receipts` that the stock tools of the restock API write. -/
inductive ReceiptNamespace where
  | deliverySwap | restockDeliverySync
  deriving DecidableEq

/-! ## Rows -/

/-- `supplier-api:<user>:<number>`, the idempotency key of an order of the supplier API. -/
structure ApiOrderKey where
  userId : Id
  downstreamOrderNo : Nat
  deriving DecidableEq

structure ApiOrderInput where
  skuId : Id
  quantity : Nat
  downstreamOrderNo : Nat
  callbackUrl : Option Nat := none
  traceId : Option Nat := none
  deriving DecidableEq

/-- `shop_orders`; a checkout's own `idempotency_key` is left out. -/
structure ShopOrder where
  id : Id
  orderNumber : Nat := 0
  idempotencyKey : Option ApiOrderKey := none
  status : ShopOrderStatus
  version : Nat
  totalMinor : Minor
  paidMinor : Minor := 0
  currency : Nat := 0
  currencyDecimals : Nat := 2
  userId : Option Id := none
  couponId : Option Id := none
  expiresAt : Time := 0
  updatedAt : Time := 0
  promotionPurpose : Option CouponPurpose := none
  referrerUserId : Option Id := none
  referralRewardMinor : Minor := 0
  normalizedContactEmail : Option Nat := none
  deriving DecidableEq

structure ShopOrderItem where
  id : Id
  orderId : Id
  productId : Id := 0
  sellableItemId : Id
  deliveryComponentId : Id
  deliveryComponentType : ComponentType
  quantity : Nat
  durationMs : Option Nat := none
  usageLimit : Option Nat := none
  accessLimit : Option Nat := none
  renewedFromEntitlementId : Option Id := none
  deriving DecidableEq

inductive EventId where
  | gptUpgrade (itemId : Id)
  | agentAccess (itemId : Id)
  | automation (jobId : Id) (status : JobStatus)
  deriving DecidableEq

/-- `shop_order_events`; a random id is `none`. -/
structure ShopOrderEvent where
  orderId : Id
  eventType : OrderEventType
  fromStatus : Option ShopOrderStatus
  toStatus : Option ShopOrderStatus
  orderVersion : Option Nat
  afterSaleCaseId : Option Id := none
  id : Option EventId := none
  deriving DecidableEq

structure Refund where
  id : Id
  orderId : Id
  paymentAttemptId : Option Id
  providerRefundId : Option ProviderRefundId := none
  idempotencyKey : Nat
  amountMinor : Minor
  paymentAmountMinor : Int
  orderStatusBefore : ShopOrderStatus
  status : RefundStatus
  failureCode : Option RefundFailure := none
  attemptCount : Nat := 0
  nextAttemptAt : Option Time := none
  completedAt : Option Time := none
  cashReturnMinor : Int := 0
  rewardReturnMinor : Int := 0
  referralReversalMinor : Int := 0

/-- `payment_attempts`. The exchange rate is a decimal, `rateUnits / 10 ^ rateDecimals`. -/
structure PaymentAttempt where
  id : Id
  orderId : Option Id
  walletTopupId : Option Id := none
  channelId : Id
  providerPaymentId : Option ProviderPaymentId := none
  idempotencyKey : Nat
  status : AttemptStatus
  amountMinor : Minor
  currency : Nat := 0
  currencyDecimals : Nat := 2
  rateUnits : Nat := 1
  rateDecimals : Nat := 0
  exchangeRateDirection : RateDirection := .parity
  orderAmountMinor : Option Minor := none
  failureCode : Option AttemptFailure := none
  updatedAt : Time := 0
  deriving DecidableEq

/-- `replay_receipts` of the namespace `payment_webhook`. -/
structure ReplayReceipt where
  channelId : Id
  paymentAttemptId : Id
  externalId : PaymentEventKey
  eventType : PaymentEventType
  payloadDigest : Nat
  status : ReceiptStatus

/-- `replay_receipts` of the restock API's stock tools; the scope is the order. -/
structure StockReceipt where
  id : Id
  scope : ReceiptNamespace
  orderId : Id
  requestRef : Nat
  payloadDigest : Nat
  deriving DecidableEq

structure WalletTopup where
  id : Id
  userId : Id
  amountMinor : Minor
  currency : Nat := 0
  status : TopupStatus := .pending

structure PaymentChannel where
  id : Id
  enabled : Bool := true
  provider : PaymentProvider
  credentialEncrypted : Option Nat := none

structure OutboxEvent where
  eventType : OutboxType
  aggregateId : Id
  idempotencyKey : OutboxKey
  status : OutboxStatus := .pending
  nextAttemptAt : Option Time := none
  deriving DecidableEq

structure User where
  id : Id
  enabled : Bool := true
  balanceMinor : Int := 0
  rewardBalanceMinor : Int := 0
  balanceVersion : Nat := 1
  deriving DecidableEq

structure WalletEntry where
  userId : Id
  direction : WalletDirection
  amountMinor : Int
  balanceBeforeMinor : Int
  balanceAfterMinor : Int
  sourceType : WalletSource
  sourceId : Id
  idempotencyKey : WalletKey
  deriving DecidableEq

structure OrderBalanceHold where
  orderId : Id
  userId : Id
  cashMinor : Minor
  rewardMinor : Minor
  externalMinor : Minor
  state : HoldState
  deriving DecidableEq

structure PromotionReward where
  orderId : Id
  userId : Option Id
  amountMinor : Int
  remainingMinor : Int
  state : RewardState := .pending
  availableAt : Option Time := none
  deriving DecidableEq

structure RewardEntry where
  userId : Id
  deltaMinor : Int
  balanceAfterMinor : Int
  idempotencyKey : RewardKey

structure Coupon where
  id : Id
  enabled : Bool := true
  purpose : CouponPurpose
  usageLimit : Option Nat := none
  usageLimitPerCustomer : Option Nat := none
  usedCount : Nat
  referrerUserId : Option Id := none
  deriving DecidableEq

structure CouponRedemption where
  id : Id
  couponId : Id
  orderId : Id
  userId : Option Id := none
  normalizedEmail : Nat := 0
  status : RedemptionStatus
  deriving DecidableEq

/-- `after_sale_cases`; `isRefund` is `type = 'refund'`. -/
structure AfterSaleCase where
  id : Id
  orderId : Id
  isRefund : Bool
  status : AfterSaleStatus
  updatedAt : Time

structure EntitlementGrant where
  id : Id
  entitlementId : Id
  sourceOrderItemId : Id
  status : GrantStatus
  durationMs : Option Nat := none
  usageGranted : Option Nat := none
  accessGranted : Option Nat := none
  activatedAt : Option Time := none
  appliedAt : Option Time := none
  createdAt : Time := 0
  deriving DecidableEq

structure CustomerEntitlement where
  id : Id
  userId : Option Id
  orderItemId : Id
  sellableItemId : Id
  status : EntitlementStatus
  usageLimit : Option Nat := none
  usageCount : Nat := 0
  accessLimit : Option Nat := none
  accessCount : Nat := 0
  activatedAt : Option Time := none
  expiresAt : Option Time := none

structure DeliveryRecord where
  id : Id
  orderItemId : Id
  deliveryType : ComponentType
  requestKey : Option RequestKey := none
  status : DeliveryStatus
  contentEncrypted : Option DeliveryContent := none
  redeemSku : Option Nat := none
  attemptCount : Nat := 0
  nextAttemptAt : Option Time := none
  errorCode : Option DeliveryError := none
  deriving DecidableEq

/-- `stock_entries`; `fromWarehouse` is `note LIKE 'source=redeem-warehouse;%'`, and `converted` says
which text `content_encrypted` is. The fingerprint stays that of the imported one. -/
structure StockEntry where
  id : Id
  sellableItemId : Id
  contentFingerprint : Nat := id
  converted : Bool := false
  fromWarehouse : Bool := false
  status : StockStatus
  orderItemId : Option Id := none
  redeemSku : Option Nat := none
  supplierOrderId : Option Id := none
  createdAt : Time := 0
  deriving DecidableEq

/-- `product_sellable_items`, with its setting `fulfillment.supplier_fallback.<id>`. -/
structure SellableItem where
  id : Id
  enabled : Bool := true
  fulfillmentSource : FulfillmentSource := .local
  supplierFallbackEnabled : Bool := false
  maximumPerCustomer : Option Nat := none

/-- The settings `integration.redeem_delivery.<component>` (no order) and
`integration.redeem_delivery_trial.<order>.<component>`; `none` is a value that is no known SKU. -/
structure RedeemRoute where
  orderId : Option Id
  componentId : Id
  sku : Option Nat

/-- `supplier_bindings`; `source` stands for provider, API origin and protocol version. -/
structure SupplierBinding where
  id : Id
  sellableItemId : Id
  source : Nat
  referenceCostMinor : Minor
  enabled : Bool := true

structure SupplierAccount where
  id : Id
  source : Nat
  enabled : Bool := true

structure SupplierOrder where
  id : Id
  orderId : Id
  orderItemId : Id
  deliveryRecordId : Id
  supplierBindingId : Id
  selectedAccountId : Option Id := none
  selectedCredentialsRevision : Option Nat := none
  providerRequestNo : Option Nat := none
  upstreamOrderId : Option Nat := none
  quantity : Nat
  state : SupplierOrderState := .pending
  attemptCount : Nat := 0
  selectionCount : Nat := 0
  accountLockedAt : Option Time := none
  nextRetryAt : Option Time := none

structure SupplierApiOrder where
  id : Id
  shopOrderId : Id
  userId : Id
  downstreamOrderNo : Nat
  requestDigest : ApiOrderInput
  state : ApiOrderState := .processing

/-- `agent_access_orders`; the active key is `<user>:<kind>`. -/
structure AgentAccessOrder where
  orderItemId : Id
  userId : Id := 0
  kind : AgentAccessKind := .subsite
  activeKey : Option (Id × AgentAccessKind) := none
  state : AgentAccessState := .pending
  initialPasswordEncrypted : Option Nat := none
  attemptCount : Nat := 0
  nextAttemptAt : Time := 0

structure GptUpgradeOrder where
  orderItemId : Id
  quoteId : Nat := 0
  activeKey : Option Nat := none
  state : UpgradeState := .pending
  attemptCount : Nat := 0
  nextAttemptAt : Time := 0

/-- `download_assets` joined with `download_asset_sellable_items`. -/
structure DownloadBinding where
  assetId : Id
  sellableItemId : Id
  productId : Id
  downloadEnabled : Bool := true

structure OrderItemDownloadAsset where
  orderItemId : Id
  assetId : Id

/-- `automation_jobs`; `artifact_policy = 'required'` is `artifactRequired`. -/
structure AutomationJob where
  id : Id
  entitlementId : Id
  orderItemId : Id
  sellableItemId : Id
  provider : BuildProvider
  artifactRequired : Bool
  idempotencyKey : Nat
  status : JobStatus := .queued
  providerJobId : Option ProviderJobId := none
  attemptCount : Nat := 0
  nextAttemptAt : Option Time := none
  timeoutAt : Time
  runUrl : Option Nat := none
  usageRestoredAt : Option Time := none
  updatedAt : Time

/-- `entitlement_events` of kind `usage`; their amount is 1. -/
structure UsageEvent where
  entitlementId : Id
  eventType : UsageEventType
  idempotencyKey : UsageKey

structure AuditLog where
  action : String
  targetId : Id

/-- A run that a build provider has started: for which job, and after how many retries of it. -/
structure ProviderRun where
  jobId : Id
  run : Nat
  attempt : Nat
  deriving DecidableEq

structure Remote where
  builds : List ProviderRun := []

def StockEntry.code (e : StockEntry) : StockCode := ⟨e.id, e.converted⟩

/-! ## Declared constraints -/

instance : KeyedRow ShopOrder where
  clash a b := a.id == b.id || (a.idempotencyKey == b.idempotencyKey && a.idempotencyKey.isSome)
  valid r := decide (0 < r.version)
  key := ShopOrder.id
  clash_of_key a b h := by simp [h]

instance : KeyedRow ShopOrderItem where
  clash a b := a.id == b.id
  valid r := decide (0 < r.quantity)
  key := ShopOrderItem.id
  clash_of_key a b h := by simpa using h

/-- `shop_order_events_order_version_uidx` (a NULL version never clashes) and
`shop_order_events_transition_check`. -/
instance : Row ShopOrderEvent where
  clash a b := (a.orderId == b.orderId && a.orderVersion == b.orderVersion &&
    a.orderVersion.isSome) || (a.id == b.id && a.id.isSome)
  valid r := match r.fromStatus, r.toStatus with
    | none, none => true
    | some a, some b => decide (a ≠ b)
    | _, _ => false

/-- Unique on the idempotency key and on (attempt, provider refund). -/
instance : KeyedRow Refund where
  clash a b := a.id == b.id || a.idempotencyKey == b.idempotencyKey ||
    (a.paymentAttemptId == b.paymentAttemptId && a.paymentAttemptId.isSome &&
      a.providerRefundId == b.providerRefundId && a.providerRefundId.isSome)
  valid r := decide (0 < r.amountMinor) && decide (0 < r.paymentAmountMinor)
  key := Refund.id
  clash_of_key a b h := by simp [h]

instance : KeyedRow PaymentAttempt where
  clash a b := a.id == b.id || a.idempotencyKey == b.idempotencyKey ||
    (a.channelId == b.channelId && a.providerPaymentId == b.providerPaymentId && a.providerPaymentId.isSome)
  valid r := (r.orderId.isSome && r.walletTopupId.isNone) || (r.orderId.isNone && r.walletTopupId.isSome)
  key := PaymentAttempt.id
  clash_of_key a b h := by simp [h]

/-- `replay_receipts_namespace_scope_external_uidx`. -/
instance : Row ReplayReceipt where
  clash a b := a.channelId == b.channelId && a.externalId == b.externalId

instance : Row StockReceipt where
  clash a b := a.id == b.id || (a.scope == b.scope && a.orderId == b.orderId && a.requestRef == b.requestRef)

instance : KeyedRow WalletTopup where
  clash a b := a.id == b.id
  key := WalletTopup.id
  clash_of_key a b h := by simpa using h

instance : KeyedRow PaymentChannel where
  clash a b := a.id == b.id
  key := PaymentChannel.id
  clash_of_key a b h := by simpa using h

instance : KeyedRow SellableItem where
  clash a b := a.id == b.id
  key := SellableItem.id
  clash_of_key a b h := by simpa using h

instance : Row RedeemRoute where
  clash a b := a.orderId == b.orderId && a.componentId == b.componentId

/-- At most one enabled binding an item. -/
instance : KeyedRow SupplierBinding where
  clash a b := a.id == b.id || (a.sellableItemId == b.sellableItemId && a.enabled && b.enabled)
  key := SupplierBinding.id
  clash_of_key a b h := by simp [h]

instance : KeyedRow SupplierAccount where
  clash a b := a.id == b.id
  key := SupplierAccount.id
  clash_of_key a b h := by simpa using h

instance : Row OutboxEvent where
  clash a b := a.idempotencyKey == b.idempotencyKey

instance : KeyedRow User where
  clash a b := a.id == b.id
  valid r := decide (0 ≤ r.balanceMinor) && decide (0 < r.balanceVersion)
  key := User.id
  clash_of_key a b h := by simpa using h

instance : Row WalletEntry where
  clash a b := a.idempotencyKey == b.idempotencyKey
  valid r := decide (0 ≤ r.amountMinor) && decide (0 ≤ r.balanceBeforeMinor) &&
    decide (0 ≤ r.balanceAfterMinor)

instance : KeyedRow OrderBalanceHold where
  clash a b := a.orderId == b.orderId
  key := OrderBalanceHold.orderId
  clash_of_key a b h := by simpa using h

/-- `user_id` is NOT NULL. -/
instance : KeyedRow PromotionReward where
  clash a b := a.orderId == b.orderId
  valid r := r.userId.isSome
  key := PromotionReward.orderId
  clash_of_key a b h := by simpa using h

instance : Row RewardEntry where
  clash a b := a.idempotencyKey == b.idempotencyKey

instance : KeyedRow Coupon where
  clash a b := a.id == b.id
  key := Coupon.id
  clash_of_key a b h := by simpa using h

instance : KeyedRow CouponRedemption where
  clash a b := a.id == b.id || a.orderId == b.orderId
  key := CouponRedemption.id
  clash_of_key a b h := by simp [h]

instance : KeyedRow AfterSaleCase where
  clash a b := a.id == b.id
  key := AfterSaleCase.id
  clash_of_key a b h := by simpa using h

instance : KeyedRow EntitlementGrant where
  clash a b := a.id == b.id || a.sourceOrderItemId == b.sourceOrderItemId
  valid r := decide (r.durationMs ≠ some 0) && decide (r.usageGranted ≠ some 0) &&
    decide (r.accessGranted ≠ some 0)
  key := EntitlementGrant.id
  clash_of_key a b h := by simp [h]

instance : KeyedRow CustomerEntitlement where
  clash a b := a.id == b.id || a.orderItemId == b.orderItemId
  valid r := decide (r.usageLimit ≠ some 0) && decide (r.accessLimit ≠ some 0)
  key := CustomerEntitlement.id
  clash_of_key a b h := by simp [h]

instance : KeyedRow DeliveryRecord where
  clash a b := a.id == b.id || (a.requestKey == b.requestKey && a.requestKey.isSome)
  key := DeliveryRecord.id
  clash_of_key a b h := by simp [h]

instance : KeyedRow StockEntry where
  clash a b := a.id == b.id || (a.sellableItemId == b.sellableItemId && a.contentFingerprint == b.contentFingerprint)
  key := StockEntry.id
  clash_of_key a b h := by simp [h]

/-- Unique on the order item and on (account, request number); the account columns are all set or
all NULL (`supplier_orders_account_shape_check`). -/
instance : KeyedRow SupplierOrder where
  clash a b := a.id == b.id || a.orderItemId == b.orderItemId ||
    (a.selectedAccountId == b.selectedAccountId && a.selectedAccountId.isSome &&
      a.providerRequestNo == b.providerRequestNo && a.providerRequestNo.isSome)
  valid r := decide (0 < r.quantity) && ((r.selectedAccountId.isNone && r.selectedCredentialsRevision.isNone &&
        r.providerRequestNo.isNone && r.accountLockedAt.isNone) ||
      (r.selectedAccountId.isSome && decide (0 < r.selectedCredentialsRevision.getD 0) && r.providerRequestNo.isSome))
  key := SupplierOrder.id
  clash_of_key a b h := by simp [h]

/-- Unique on the shop order and on the user's number. -/
instance : KeyedRow SupplierApiOrder where
  clash a b := a.id == b.id || a.shopOrderId == b.shopOrderId ||
    (a.userId == b.userId && a.downstreamOrderNo == b.downstreamOrderNo)
  key := SupplierApiOrder.id
  clash_of_key a b h := by simp [h]

/-- `active_key` is unique; NULL never clashes. -/
instance : KeyedRow AgentAccessOrder where
  clash a b := a.orderItemId == b.orderItemId || (a.activeKey == b.activeKey && a.activeKey.isSome)
  key := AgentAccessOrder.orderItemId
  clash_of_key a b h := by simp [h]

instance : KeyedRow GptUpgradeOrder where
  clash a b := a.orderItemId == b.orderItemId || (a.activeKey == b.activeKey && a.activeKey.isSome)
  key := GptUpgradeOrder.orderItemId
  clash_of_key a b h := by simp [h]

instance : Row DownloadBinding where
  clash a b := a.assetId == b.assetId && a.sellableItemId == b.sellableItemId

instance : Row OrderItemDownloadAsset where
  clash a b := a.orderItemId == b.orderItemId && a.assetId == b.assetId

instance : KeyedRow AutomationJob where
  clash a b := a.id == b.id || a.idempotencyKey == b.idempotencyKey ||
    (a.sellableItemId == b.sellableItemId && a.providerJobId == b.providerJobId && a.providerJobId.isSome)
  key := AutomationJob.id
  clash_of_key a b h := by simp [h]

instance : Row UsageEvent where
  clash a b := a.idempotencyKey == b.idempotencyKey

instance : Row AuditLog where
  clash _ _ := false

/-! ## The database -/

structure Db where
  orders : Table ShopOrder := .empty
  items : Table ShopOrderItem := .empty
  events : Table ShopOrderEvent := .empty
  refunds : Table Refund := .empty
  attempts : Table PaymentAttempt := .empty
  channels : Table PaymentChannel := .empty
  receipts : Table ReplayReceipt := .empty
  stockReceipts : Table StockReceipt := .empty
  topups : Table WalletTopup := .empty
  outbox : Table OutboxEvent := .empty
  users : Table User := .empty
  walletEntries : Table WalletEntry := .empty
  holds : Table OrderBalanceHold := .empty
  rewards : Table PromotionReward := .empty
  rewardEntries : Table RewardEntry := .empty
  coupons : Table Coupon := .empty
  redemptions : Table CouponRedemption := .empty
  afterSales : Table AfterSaleCase := .empty
  grants : Table EntitlementGrant := .empty
  entitlements : Table CustomerEntitlement := .empty
  deliveries : Table DeliveryRecord := .empty
  stock : Table StockEntry := .empty
  sellableItems : Table SellableItem := .empty
  redeemRoutes : Table RedeemRoute := .empty
  bindings : Table SupplierBinding := .empty
  accounts : Table SupplierAccount := .empty
  supplierOrders : Table SupplierOrder := .empty
  supplierApiOrders : Table SupplierApiOrder := .empty
  agentOrders : Table AgentAccessOrder := .empty
  upgradeOrders : Table GptUpgradeOrder := .empty
  downloadBindings : Table DownloadBinding := .empty
  downloadAssets : Table OrderItemDownloadAsset := .empty
  automationJobs : Table AutomationJob := .empty
  usageEvents : Table UsageEvent := .empty
  auditLogs : Table AuditLog := .empty
  remote : Remote := {}

namespace Db

def ordersT : TableRef Db ShopOrder := ⟨orders, fun s t => { s with orders := t }, fun _ _ => rfl⟩
def eventsT : TableRef Db ShopOrderEvent :=
  ⟨events, fun s t => { s with events := t }, fun _ _ => rfl⟩
def refundsT : TableRef Db Refund := ⟨refunds, fun s t => { s with refunds := t }, fun _ _ => rfl⟩
def attemptsT : TableRef Db PaymentAttempt :=
  ⟨attempts, fun s t => { s with attempts := t }, fun _ _ => rfl⟩
def outboxT : TableRef Db OutboxEvent :=
  ⟨outbox, fun s t => { s with outbox := t }, fun _ _ => rfl⟩
def usersT : TableRef Db User := ⟨users, fun s t => { s with users := t }, fun _ _ => rfl⟩
def walletEntriesT : TableRef Db WalletEntry :=
  ⟨walletEntries, fun s t => { s with walletEntries := t }, fun _ _ => rfl⟩
def holdsT : TableRef Db OrderBalanceHold :=
  ⟨holds, fun s t => { s with holds := t }, fun _ _ => rfl⟩
def rewardsT : TableRef Db PromotionReward :=
  ⟨rewards, fun s t => { s with rewards := t }, fun _ _ => rfl⟩
def rewardEntriesT : TableRef Db RewardEntry :=
  ⟨rewardEntries, fun s t => { s with rewardEntries := t }, fun _ _ => rfl⟩
def couponsT : TableRef Db Coupon := ⟨coupons, fun s t => { s with coupons := t }, fun _ _ => rfl⟩
def redemptionsT : TableRef Db CouponRedemption :=
  ⟨redemptions, fun s t => { s with redemptions := t }, fun _ _ => rfl⟩
def afterSalesT : TableRef Db AfterSaleCase :=
  ⟨afterSales, fun s t => { s with afterSales := t }, fun _ _ => rfl⟩
def grantsT : TableRef Db EntitlementGrant :=
  ⟨grants, fun s t => { s with grants := t }, fun _ _ => rfl⟩
def entitlementsT : TableRef Db CustomerEntitlement :=
  ⟨entitlements, fun s t => { s with entitlements := t }, fun _ _ => rfl⟩
def deliveriesT : TableRef Db DeliveryRecord :=
  ⟨deliveries, fun s t => { s with deliveries := t }, fun _ _ => rfl⟩
def stockT : TableRef Db StockEntry := ⟨stock, fun s t => { s with stock := t }, fun _ _ => rfl⟩
def supplierOrdersT : TableRef Db SupplierOrder :=
  ⟨supplierOrders, fun s t => { s with supplierOrders := t }, fun _ _ => rfl⟩
def supplierApiOrdersT : TableRef Db SupplierApiOrder :=
  ⟨supplierApiOrders, fun s t => { s with supplierApiOrders := t }, fun _ _ => rfl⟩

def receiptsT : TableRef Db ReplayReceipt :=
  ⟨receipts, fun s t => { s with receipts := t }, fun _ _ => rfl⟩
def stockReceiptsT : TableRef Db StockReceipt :=
  ⟨stockReceipts, fun s t => { s with stockReceipts := t }, fun _ _ => rfl⟩
def topupsT : TableRef Db WalletTopup := ⟨topups, fun s t => { s with topups := t }, fun _ _ => rfl⟩
def itemsT : TableRef Db ShopOrderItem := ⟨items, fun s t => { s with items := t }, fun _ _ => rfl⟩
def downloadAssetsT : TableRef Db OrderItemDownloadAsset :=
  ⟨downloadAssets, fun s t => { s with downloadAssets := t }, fun _ _ => rfl⟩
def agentOrdersT : TableRef Db AgentAccessOrder :=
  ⟨agentOrders, fun s t => { s with agentOrders := t }, fun _ _ => rfl⟩
def upgradeOrdersT : TableRef Db GptUpgradeOrder :=
  ⟨upgradeOrders, fun s t => { s with upgradeOrders := t }, fun _ _ => rfl⟩

def automationJobsT : TableRef Db AutomationJob :=
  ⟨automationJobs, fun s t => { s with automationJobs := t }, fun _ _ => rfl⟩
def usageEventsT : TableRef Db UsageEvent :=
  ⟨usageEvents, fun s t => { s with usageEvents := t }, fun _ _ => rfl⟩
def auditLogsT : TableRef Db AuditLog :=
  ⟨auditLogs, fun s t => { s with auditLogs := t }, fun _ _ => rfl⟩

/-- `SELECT g FROM shop_orders WHERE id = ? AND p`. -/
def fromOrder {α : Type} (s : Db) (orderId : Id) (p : ShopOrder → Bool) (g : ShopOrder → α) : List α :=
  (s.orders.rows.filter fun o => o.id == orderId && p o).map g

/-- `EXISTS (SELECT 1 FROM shop_orders WHERE id = ? AND p)`. -/
def orderIs (s : Db) (orderId : Id) (p : ShopOrder → Bool) : Bool :=
  s.orders.exist fun o => o.id == orderId && p o

/-- `itemId IN (SELECT id FROM shop_order_items WHERE order_id = ?)`. -/
def itemOf (s : Db) (orderId itemId : Id) : Bool :=
  s.items.exist fun i => i.orderId == orderId && i.id == itemId

end Db

variable {α : Type} {s : Db} {i : Id} {p : ShopOrder → Bool}

theorem fromOrder_some {o : ShopOrder} (hi : s.orders.get? i = some o) (hp : p o = true) (g : ShopOrder → α) :
    s.fromOrder i p g = [g o] := by
  have hf : s.orders.rows.filter (fun o => o.id == i && p o) = ((s.orders.get? i).filter p).toList :=
    filter_key s.orders i p
  unfold Db.fromOrder
  rw [hf, hi, Option.filter_some_pos hp]
  rfl

theorem fromOrder_none (h : ∀ o, s.orders.get? i = some o → p o = false) (g : ShopOrder → α) :
    s.fromOrder i p g = [] := by
  have hf : s.orders.rows.filter (fun o => o.id == i && p o) = ((s.orders.get? i).filter p).toList :=
    filter_key s.orders i p
  unfold Db.fromOrder
  rw [hf, Option.filter_eq_none_iff.mpr fun o ho => by simp [h o ho]]
  rfl

theorem orderIs_iff : s.orderIs i p = true ↔ ∃ o, s.orders.get? i = some o ∧ p o = true := by
  unfold Db.orderIs
  rw [exist_iff]
  constructor
  · rintro ⟨o, ho, hp⟩
    rw [Bool.and_eq_true, beq_iff_eq] at hp
    exact ⟨o, get?_eq_some_iff.mpr ⟨ho, hp.1⟩, hp.2⟩
  · rintro ⟨o, ho, hp⟩
    obtain ⟨hm, hk⟩ := get?_eq_some_iff.mp ho
    exact ⟨o, hm, by rw [Bool.and_eq_true, beq_iff_eq]; exact ⟨hk, hp⟩⟩

theorem itemOf_iff {orderId itemId : Id} :
    s.itemOf orderId itemId = true ↔ ∃ i, s.items.get? itemId = some i ∧ i.orderId = orderId := by
  unfold Db.itemOf
  rw [exist_iff]
  constructor
  · rintro ⟨i, hi, hp⟩
    rw [Bool.and_eq_true, beq_iff_eq, beq_iff_eq] at hp
    exact ⟨i, get?_eq_some_iff.mpr ⟨hi, hp.2⟩, hp.1⟩
  · rintro ⟨i, hi, rfl⟩
    obtain ⟨hmem, hid⟩ := get?_eq_some_iff.mp hi
    exact ⟨i, hmem, by rw [Bool.and_eq_true, beq_iff_eq, beq_iff_eq]; exact ⟨rfl, hid⟩⟩

/-- `status IN ('paid', 'fulfilling')`. -/
def ShopOrderStatus.deliverable (st : ShopOrderStatus) : Bool := st == .paid || st == .fulfilling

def Db.itemDeliverable (s : Db) (itemId : Id) : Bool :=
  s.items.exist fun i => i.id == itemId && s.orderIs i.orderId (·.status.deliverable)

def orderCas (orderId : Id) (status : ShopOrderStatus) (version : Nat) (o : ShopOrder) : Bool :=
  o.id == orderId && (o.status == status && o.version == version)

/-- The order row in status `status` at `version`. -/
def setStatus (status : ShopOrderStatus) (version : Nat) (now : Time) (o : ShopOrder) : ShopOrder :=
  { o with status := status, version := version, updatedAt := now }

/-- The order row one version up, in status `status`. -/
def advanceOrder (status : ShopOrderStatus) (now : Time) (o : ShopOrder) : ShopOrder :=
  { o with status := status, version := o.version + 1, updatedAt := now }

/-! ## Commit sites -/

structure DeliveryRef where
  id : Id
  orderItemId : Id
  orderId : Id
  orderStatus : ShopOrderStatus
  orderVersion : Nat
  deriving DecidableEq

inductive Customer where
  | user (id : Id)
  | guest (email : Nat)
  deriving DecidableEq

/-- What a checkout is about to write: the order, its customer, its lines (plan and quantity), the
coupon with the use count it was read at, and the email the coupon is redeemed under. -/
structure CheckoutRef where
  orderId : Id
  customer : Customer
  lines : List (Id × Nat)
  couponId : Option Id
  couponUsedCount : Nat
  couponEmail : Nat
  deriving DecidableEq

structure WalletRefundRef where
  orderId : Id
  orderStatus : ShopOrderStatus
  orderVersion : Nat
  userId : Id
  balanceMinor : Int
  balanceVersion : Nat
  amountMinor : Minor
  fullRefund : Bool
  reversalMinor : Int
  deriving DecidableEq

structure ApiCancelRef where
  apiOrderId : Id
  userId : Id
  orderId : Id
  orderItemId : Id
  deliveryId : Id
  totalMinor : Minor
  deriving DecidableEq

/-- A refund from the balance: what returns to the customer, and what the referrer loses. -/
structure RefundParts where
  amountMinor : Minor
  cashMinor : Int
  rewardMinor : Int
  reversalMinor : Int
  deriving DecidableEq

inductive Site where
  | requestShopRefund (orderId refundId : Id)
  | refundAllocatedBalance (orderId : Id) (status : ShopOrderStatus) (version : Nat) (parts : RefundParts)
  | requestWalletShopRefund (r : WalletRefundRef)
  | retryShopRefund (refundId : Id)
  | claimRefundAttempt (refundId : Id) (attemptCount : Nat) (now : Time)
  | completeManualShopRefund (refundId : Id)
  | scheduleRefundCheck (refundId : Id)
  | recordRefundProviderFailure (refundId : Id)
  | requireManualRefundReconciliation (refundId : Id)
  | finalizeRefund (refundId : Id) (attempt : Nat) (status : RefundStatus) (orderStatus : ShopOrderStatus)
  | upgradeLease (itemId : Id)
  | upgradeDelivery (deliveryId itemId orderId : Id)
  | upgradeFailure (deliveryId : Id)
  | agentLease (itemId : Id)
  | agentPassword (itemId : Id)
  | agentDelivery (deliveryId itemId orderId : Id)
  | agentFailure (itemId : Id)
  | agentRevoke (itemId : Id)
  | convertReservedStock (stockId : Id)
  | recordOwnedDeliveryFailure (deliveryId : Id)
  | closeUndeliverableDelivery (deliveryId : Id)
  | processDelivery (d : DeliveryRef) (remaining : Nat)
  | startManualDelivery (d : DeliveryRef)
  | completeManualDelivery (d : DeliveryRef) (remaining : Nat)
  | retryDelivery (deliveryId : Id)
  | mutateWallet (userId : Id) (key : WalletKey)
  | paymentEvent (attemptId : Id)
  | failedPayment (attemptId : Id) (topupId : Option Id)
  | topupPaid (channelId topupId : Id) (event : PaymentEventKey)
  | orderPayment (attemptId orderId : Id) (status : ShopOrderStatus) (version : Nat)
  | reconcilePayment (attemptId : Id)
  | completeFreeStoreOrder (orderId : Id) (version : Nat)
  | completeWalletStoreOrder (orderId : Id) (version : Nat)
  | expireStoreOrder (orderId : Id) (version : Nat)
  | transitionShopOrder (orderId : Id) (toStatus : ShopOrderStatus)
  | cancelUnstartedBalancePayment (orderId : Id)
  | reserveOrderBalance (orderId : Id)
  | createShopPayment (orderId : Id)
  | shopPaymentCreated (attemptId : Id)
  | paymentCreationFailure (attemptId : Id)
  | createMultiStoreOrder (c : CheckoutRef)
  | prepareAgentCheckout (userId : Id) (kind : AgentAccessKind)
  | settlePromotionReward (orderId : Id)
  | createSupplierApiOrder (orderId apiOrderId : Id)
  | cancelUnpaidApiOrder (orderId apiOrderId : Id)
  | cancelSupplierApiOrder (r : ApiCancelRef)
  deriving DecidableEq

structure DomainError where
  code : String
  status : Nat
  message : String
  deriving DecidableEq

def orderVersionConflict (message : String) : DomainError :=
  ⟨"order_version_conflict", 409, message⟩

end Gmshop
