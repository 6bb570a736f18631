import GmshopEdge.Orders.Checkout

/-!
# Orders of the supplier API

`createSupplierApiOrder`, `cancelUnpaidApiOrder` and `cancelSupplierApiOrder`
(`supplier-api/server/orders.ts`): a reseller buys one SKU under a number of its own, pays from the
wallet at once, and may cancel while nothing was delivered.

What the call reads of the SKU is an argument, as are the random ids and the answers of
`validateCallback` and `assertSupplierAvailability`; the digest of a request is the request. Left
out: the key that made the request, the callback, and whose site the order came from.
-/

namespace Gmshop

open Sql Stmt

/-! ## Requests -/

structure ApiSku where
  priceMinor : Minor
  currency : Nat
  currencyDecimals : Nat
  productId : Id := 0
  stockQuantity : Nat
  ownedStockQuantity : Nat

structure ApiOrderRequest where
  userId : Id
  email : Nat
  input : ApiOrderInput
  /-- `validateCallback`. -/
  callback : Except DomainError Unit
  /-- The SKU, if it is listed and on sale. -/
  sku : Option ApiSku
  /-- The keys of the setting `integration.supply_console_map`. -/
  saleComponents : List Id
  /-- `assertSupplierAvailability` of what the shop does not own. -/
  supplierAvailability : Except DomainError Unit
  orderId : Id
  orderNumber : Nat
  orderItemId : Id
  apiOrderId : Id
  /-- The setting `commerce.default_currency` when the order is paid. -/
  currency : Nat
  now : Time
  payment : PaymentEnv

/-- The answer of a call that is `ok`; its status is always `processing`. -/
structure ApiOrderReply where
  orderId : Id
  amountMinor : Minor
  currency : Nat
  currencyDecimals : Nat

def ApiOrderRequest.key (q : ApiOrderRequest) : ApiOrderKey := ⟨q.userId, q.input.downstreamOrderNo⟩

def SupplierApiOrder.key (a : SupplierApiOrder) : ApiOrderKey := ⟨a.userId, a.downstreamOrderNo⟩

def maximumApiOrderQuantity : Nat := 100

def supplierQuantityInvalid : DomainError := ⟨"supplier_quantity_invalid", 400, "Invalid quantity"⟩
def supplierIdempotencyConflict : DomainError :=
  ⟨"supplier_idempotency_conflict", 409, "Order number was reused"⟩
def supplierOrderCancelled : DomainError :=
  ⟨"supplier_order_cancelled", 409, "This order was never paid and is cancelled; use a new order number"⟩
def supplierStockUnavailable (message : String) : DomainError :=
  ⟨"supplier_stock_unavailable", 409, message⟩

/-! ## Replays -/

def findApiOrder (s : Db) (key : ApiOrderKey) : Option (SupplierApiOrder × ShopOrder) := do
  let a ← s.supplierApiOrders.rows.find? fun a => a.key == key
  let o ← s.orders.get? a.shopOrderId
  return (a, o)

def apiOrderReply (a : SupplierApiOrder) (o : ShopOrder) : ApiOrderReply :=
  { orderId := a.id, amountMinor := o.totalMinor, currency := o.currency
    currencyDecimals := o.currencyDecimals }

def replayApiOrder (q : ApiOrderRequest) (found : SupplierApiOrder × ShopOrder) : Call Site ApiOrderReply :=
  if found.1.requestDigest ≠ q.input then Prog.throw supplierIdempotencyConflict
  else if found.1.state = .cancelled ∧ found.2.paidMinor = 0 then Prog.throw supplierOrderCancelled
  else return apiOrderReply found.1 found.2

/-! ## The batch -/

def apiOrderRow (q : ApiOrderRequest) (sku : ApiSku) : ShopOrder :=
  { id := q.orderId, orderNumber := q.orderNumber, idempotencyKey := some q.key
    status := .pendingPayment, version := 1, totalMinor := sku.priceMinor * q.input.quantity
    currency := sku.currency, currencyDecimals := sku.currencyDecimals, userId := some q.userId
    expiresAt := q.now + 900000, updatedAt := q.now, normalizedContactEmail := some q.email }

def apiOrderItem (q : ApiOrderRequest) (sku : ApiSku) : ShopOrderItem :=
  { id := q.orderItemId, orderId := q.orderId, productId := sku.productId
    sellableItemId := q.input.skuId, deliveryComponentId := q.input.skuId
    deliveryComponentType := .stock, quantity := q.input.quantity }

def supplierApiOrderRow (q : ApiOrderRequest) : SupplierApiOrder :=
  { id := q.apiOrderId, shopOrderId := q.orderId, userId := q.userId
    downstreamOrderNo := q.input.downstreamOrderNo, requestDigest := q.input }

/-- `central` says that the component has a sale capacity, which reserves at once. -/
def createApiBatch (q : ApiOrderRequest) (sku : ApiSku) (central : Bool) : List (Stmt Db) :=
  [insert Db.ordersT .abort fun s =>
      if s.users.exist fun u => u.id == q.userId && u.enabled then [apiOrderRow q sku] else []] ++
    itemGuards q.saleComponents (apiOrderItem q sku) ++
    [insert Db.itemsT .abort fun _ => [apiOrderItem q sku],
      insert Db.supplierApiOrdersT .abort fun _ => [supplierApiOrderRow q],
      insert Db.eventsT .abort fun _ =>
        [{ orderId := q.orderId, eventType := .supplierApiOrderCreated, fromStatus := none
           toStatus := none, orderVersion := none }]] ++
    (if central then [reserveSaleStatement q.input.skuId q.orderItemId q.input.quantity] else [])

/-! ## `cancelUnpaidApiOrder` -/

def cancelUnpaidBatch (orderId apiOrderId : Id) (now : Time) : List (Stmt Db) :=
  [updateOrders (fun _ o => o.id == orderId && o.status == .pendingPayment)
      (fun _ o => advanceOrder .cancelled now o),
    update Db.supplierApiOrdersT (fun s a => a.id == apiOrderId && a.state == .processing &&
        s.orderIs orderId (·.status == .cancelled))
      (fun _ a => { a with state := .cancelled }),
    releaseSaleStatement orderId]

def cancelUnpaidApiOrder (orderId apiOrderId : Id) (now : Time) : Call Site Unit := do
  let _ ← Prog.commit (.cancelUnpaidApiOrder orderId apiOrderId) (cancelUnpaidBatch orderId apiOrderId now)

/-! ## `createSupplierApiOrder` -/

/-- The payment of the new order, which is closed again where it fails. -/
def payApiOrder (q : ApiOrderRequest) : Call Site Unit :=
  Prog.tryCatch (completeWalletStoreOrder q.orderId q.userId q.currency q.payment).void fun err => do
    cancelUnpaidApiOrder q.orderId q.apiOrderId q.now
    Prog.fail err

/-- The outer `catch`: what is no error of the shop's own is taken for a number that is in use. -/
def apiOrderError (q : ApiOrderRequest) (err : Failure DomainError) : Call Site ApiOrderReply :=
  match err with
  | .aborted (.raise "owned_code_stock_unavailable") =>
    Prog.throw (supplierStockUnavailable "Insufficient owned codes")
  | .thrown e => Prog.throw e
  | err => do
    let replay ← Prog.query fun s => findApiOrder s q.key
    match replay with
    | some (a, o) =>
      if a.requestDigest = q.input then return apiOrderReply a o else Prog.fail err
    | none => Prog.fail err

def placeApiOrder (q : ApiOrderRequest) (sku : ApiSku) (central : Bool) : Call Site ApiOrderReply :=
  Prog.tryCatch (do
    let _ ← Prog.commit (.createSupplierApiOrder q.orderId q.apiOrderId) (createApiBatch q sku central)
    payApiOrder q
    return apiOrderReply (supplierApiOrderRow q) (apiOrderRow q sku))
    (apiOrderError q)

def newApiOrder (q : ApiOrderRequest) (sku : ApiSku) : Call Site ApiOrderReply := do
  let central ← prepareSale q.saleComponents q.input.skuId q.input.quantity
  if central = false ∧ sku.stockQuantity < q.input.quantity then
    Prog.throw (supplierStockUnavailable "Insufficient stock")
  else liftExcept (if central = false ∧ sku.ownedStockQuantity < q.input.quantity then
      q.supplierAvailability else .ok ())
    let buyer ← Prog.query fun s => (s.users.get? q.userId).filter (·.enabled)
    if buyer.all fun u => decide (u.balanceMinor < ((apiOrderRow q sku).totalMinor : Int)) then
      Prog.throw ⟨"wallet_insufficient_balance", 409, "Insufficient balance"⟩
    else placeApiOrder q sku central

def createSupplierApiOrder (q : ApiOrderRequest) : Call Site ApiOrderReply :=
  if q.input.quantity < 1 ∨ maximumApiOrderQuantity < q.input.quantity then Prog.throw supplierQuantityInvalid
  else match q.callback with
  | .error e => Prog.throw e
  | .ok () => do
    let existing ← Prog.query fun s => findApiOrder s q.key
    match existing with
    | some found => replayApiOrder q found
    | none => match q.sku with
      | none => Prog.throw ⟨"supplier_sku_not_found", 404, "SKU not found"⟩
      | some sku => newApiOrder q sku

/-! ## `cancelSupplierApiOrder` -/

structure ApiOrderCancel where
  userId : Id
  apiOrderId : Id
  now : Time

/-- What a cancellation reads: the row, its order, the item and its delivery. -/
structure ApiCancelRow where
  state : ApiOrderState
  orderId : Id
  orderStatus : ShopOrderStatus
  totalMinor : Minor
  orderItemId : Id
  delivery : Option (Id × DeliveryStatus)

def apiCancelRow (s : Db) (userId apiOrderId : Id) : Option ApiCancelRow := do
  let a ← (s.supplierApiOrders.get? apiOrderId).filter (·.userId == userId)
  let o ← s.orders.get? a.shopOrderId
  let i ← s.items.rows.find? (·.orderId == o.id)
  return { state := a.state, orderId := o.id, orderStatus := o.status, totalMinor := o.totalMinor
           orderItemId := i.id
           delivery := (s.deliveries.rows.find? (·.orderItemId == i.id)).map fun d => (d.id, d.status) }

def supplierOrderNotCancellable : DomainError :=
  ⟨"supplier_order_not_cancellable", 409, "Order cannot be cancelled"⟩

def cancelApiBatch (r : ApiCancelRef) (now : Time) : List (Stmt Db) :=
  [update Db.deliveriesT (fun _ d => d.id == r.deliveryId && d.status == .pending) (fun _ d => { d with
        status := .failed, errorCode := some .supplierApiCancelled, nextAttemptAt := none }),
    update Db.stockT (fun _ e => e.orderItemId == some r.orderItemId && e.status == .reserved)
      (fun _ e => releasedEntry e),
    updateOrders (fun _ o => o.id == r.orderId && (o.status == .paid || o.status == .fulfilling))
      (fun _ o => advanceOrder .cancelled now o),
    update Db.supplierApiOrdersT (fun _ a => a.id == r.apiOrderId && a.state == .processing)
      (fun _ a => { a with state := .cancelled })]

def cancelCredit (r : ApiCancelRef) : WalletMutation :=
  { userId := r.userId, direction := .credit, amountMinor := r.totalMinor, sourceType := .refund
    sourceId := r.orderId, idempotencyKey := .supplierApiCancel r.apiOrderId }

def commitApiCancel (r : ApiCancelRef) (now : Time) : Call Site Unit := do
  let results ← Prog.commit (.cancelSupplierApiOrder r) (cancelApiBatch r now)
  if results.headD 0 ≠ 1 then Prog.throw supplierOrderNotCancellable
  else (mutateWallet (cancelCredit r)).void

def cancelSupplierApiOrder (q : ApiOrderCancel) : Call Site Unit := do
  let row ← Prog.query fun s => apiCancelRow s q.userId q.apiOrderId
  match row with
  | none => Prog.throw ⟨"supplier_order_not_found", 404, "Order not found"⟩
  | some row =>
    if row.state = .cancelled then return ()
    else match row.delivery with
    | some (deliveryId, .pending) =>
      if row.orderStatus = .paid ∨ row.orderStatus = .fulfilling then
        commitApiCancel
          { apiOrderId := q.apiOrderId, userId := q.userId, orderId := row.orderId
            orderItemId := row.orderItemId, deliveryId := deliveryId, totalMinor := row.totalMinor }
          q.now
      else Prog.throw supplierOrderNotCancellable
    | _ => Prog.throw supplierOrderNotCancellable

end Gmshop
