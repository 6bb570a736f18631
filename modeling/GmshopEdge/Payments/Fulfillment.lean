import GmshopEdge.Entitlements.Ledger

/-!
# What a payment sets going

`fulfillmentStatements` (`shop-payments/server/service.ts`): the statements that a paid order's batch
holds for each of its items. They reserve local stock, write the delivery record, the supplier order
of what is missing, the entitlement and its grant, and the outbox rows that start the delivery.

Left out: the capacity generation of `redeem_sale_capacity`, the owner's sale alert and the commerce
events.
-/

namespace Gmshop

open Sql Stmt

/-! ## Items -/

/-- `OrderItem`: an item joined with its sellable item and its enabled supplier binding. -/
structure OrderItem where
  item : ShopOrderItem
  fulfillmentSource : FulfillmentSource
  supplierFallbackEnabled : Bool
  binding : Option SupplierBinding
  /-- Some account of the binding's source tells the currency. -/
  supplierCurrency : Bool

/-- `orderItemsForFulfillmentSql`. -/
def orderItemsForFulfillment (s : Db) (orderId : Id) : List OrderItem :=
  s.items.rows.filterMap fun i =>
    if i.orderId = orderId then (s.sellableItems.get? i.sellableItemId).map fun psi =>
        let binding := s.bindings.rows.find? fun b => b.sellableItemId == psi.id && b.enabled
        { item := i, fulfillmentSource := psi.fulfillmentSource
          supplierFallbackEnabled := psi.supplierFallbackEnabled, binding := binding
          supplierCurrency := binding.any fun b => s.accounts.exist fun a => a.source == b.source }
    else none

/-- `supplierBindingReady`: the columns of a binding are never NULL, so the account's currency
decides. -/
def OrderItem.supplierBindingReady (i : OrderItem) : Bool := i.binding.isSome && i.supplierCurrency

def OrderItem.isStock (i : OrderItem) : Bool := i.item.deliveryComponentType == .stock

def OrderItem.localStock (i : OrderItem) : Bool := i.isStock && i.fulfillmentSource == .local

def OrderItem.supplierStock (i : OrderItem) : Bool := i.isStock && i.fulfillmentSource == .supplier

def OrderItem.manualStock (i : OrderItem) : Bool := i.isStock && i.fulfillmentSource == .manual

def OrderItem.supplierFallback (i : OrderItem) : Bool :=
  i.localStock && i.supplierFallbackEnabled && i.supplierBindingReady

def OrderItem.useSupplier (i : OrderItem) : Bool := i.supplierStock || i.supplierFallback

structure ItemIds where
  delivery : Id
  supplierOrder : Id
  entitlement : Id
  grant : Id

/-! ## Stock -/

/-- `ORDER BY created_at, id`. -/
def entryOrder (a b : StockEntry) : Prop :=
  a.createdAt < b.createdAt ∨ (a.createdAt = b.createdAt ∧ a.id ≤ b.id)

instance (a b : StockEntry) : Decidable (entryOrder a b) := inferInstanceAs (Decidable (_ ∨ _))

def availableEntries (s : Db) (componentId : Id) : List StockEntry :=
  s.stock.rows.filter fun e => e.sellableItemId == componentId && e.status == .available

/-- `SELECT id … WHERE status = 'available' ORDER BY created_at, id LIMIT n`. -/
def firstAvailable (s : Db) (componentId : Id) (n : Nat) : List Id :=
  ((List.insertionSort entryOrder (availableEntries s componentId)).take n).map (·.id)

def reservedCount (s : Db) (orderItemId : Id) : Nat :=
  s.stock.count fun e => e.orderItemId == some orderItemId && e.status == .reserved

def reservedFor (orderItemId : Id) (e : StockEntry) : StockEntry :=
  { e with status := .reserved, orderItemId := some orderItemId }

/-- The reservation at payment: what is missing of the quantity, and without a supplier to fall back
on only if all of it is there. -/
def reserveStockStatement (i : OrderItem) : Stmt Db :=
  update Db.stockT (fun s e => (firstAvailable s i.item.deliveryComponentId
        (i.item.quantity - reservedCount s i.item.id)).contains e.id &&
      (i.supplierFallback || decide (i.item.quantity ≤
        (availableEntries s i.item.deliveryComponentId).length + reservedCount s i.item.id)))
    (fun _ e => reservedFor i.item.id e)

/-! ## Statements -/

def stockDeliveryStart (s : Db) (i : OrderItem) : DeliveryStatus × Option DeliveryError :=
  if i.manualStock then (.awaitingSupply, none)
  else if reservedCount s i.item.id = i.item.quantity then (.pending, none)
  else if i.useSupplier then (.awaitingSupply, none)
  else (.failed, some .inventoryUnavailable)

/-- The delivery record of an item; its request key makes a second one impossible. -/
def deliveryStatement (orderId : Id) (i : OrderItem) (ids : ItemIds) (now : Time) : Stmt Db :=
  insertDelivery fun s => s.fromOrder orderId (·.status == .paid) fun _ =>
    if i.isStock then
      { id := ids.delivery, orderItemId := i.item.id, deliveryType := .stock
        requestKey := some (.initial i.item.id), status := (stockDeliveryStart s i).1
        nextAttemptAt := some now, errorCode := (stockDeliveryStart s i).2 }
    else
      { id := ids.delivery, orderItemId := i.item.id, deliveryType := i.item.deliveryComponentType
        requestKey := some (.initial i.item.id), status := .pending, nextAttemptAt := some now }

def supplierOrderStatement (orderId : Id) (i : OrderItem) (ids : ItemIds) (now : Time) : Stmt Db :=
  insert Db.supplierOrdersT .abort fun s =>
    s.fromOrder orderId (fun o => o.status == .paid &&
        decide (reservedCount s i.item.id < i.item.quantity)) fun o =>
      { id := ids.supplierOrder, orderId := o.id, orderItemId := i.item.id
        deliveryRecordId := ids.delivery, supplierBindingId := (i.binding.map (·.id)).getD 0
        quantity := i.item.quantity - reservedCount s i.item.id, nextRetryAt := some now }

/-- The assets a download item gets, and the delivery that fails without any. -/
def downloadStatements (orderId : Id) (item : ShopOrderItem) : List (Stmt Db) :=
  [insert Db.downloadAssetsT .orIgnore (fun s =>
      if s.orderIs orderId (·.status == .paid) then
        (s.downloadBindings.rows.filter fun b => b.sellableItemId == item.deliveryComponentId &&
          b.productId == item.productId && b.downloadEnabled).map fun b =>
            { orderItemId := item.id, assetId := b.assetId }
      else []),
    update Db.deliveriesT (fun s d => d.orderItemId == item.id && d.status == .pending &&
        !(s.downloadAssets.exist fun a => a.orderItemId == item.id))
      (fun _ d => { d with
        status := .failed, errorCode := some .downloadUnavailable, nextAttemptAt := none })]

/-- The outbox rows that start the delivery: the supplier's where there is a supplier order, none for
a manual delivery. -/
def requestStatements (orderId : Id) (i : OrderItem) (ids : ItemIds) : List (Stmt Db) :=
  if i.useSupplier then [insert Db.outboxT .abort fun s =>
        (s.deliveries.rows.filter fun d => d.id == ids.delivery &&
          !(s.supplierOrders.exist fun o => o.deliveryRecordId == d.id)).map fun d =>
            { eventType := .deliveryRequested, aggregateId := d.id
              idempotencyKey := .deliveryInitial d.id },
      insert Db.outboxT .abort fun s =>
        (s.supplierOrders.rows.filter fun o => o.id == ids.supplierOrder).map fun o =>
          { eventType := .supplierRequested, aggregateId := o.id
            idempotencyKey := .supplierInitial o.id }]
  else if i.manualStock then []
  else [insert Db.outboxT .abort fun s => s.fromOrder orderId (·.status == .paid) fun _ =>
      { eventType := .deliveryRequested, aggregateId := ids.delivery
        idempotencyKey := .deliveryInitial ids.delivery }]

def maxInteger : Nat := 9223372036854775807

def fulfillmentStatements (orderId : Id) (i : OrderItem) (ids : ItemIds) (now : Time) :
    Except DomainError (List (Stmt Db)) :=
  if i.supplierStock && !i.supplierBindingReady then
    .error ⟨"supplier_binding_unavailable", 409, "Supplier binding unavailable"⟩
  else if i.useSupplier &&
      decide (maxInteger < ((i.binding.map (·.referenceCostMinor)).getD 0) * i.item.quantity) then
    .error ⟨"supplier_cost_out_of_range", 409, "Supplier cost exceeds the supported range"⟩
  else do
    let entitlement ←
      createEntitlementGrantStatements orderId i.item now ids.entitlement ids.grant
    return (if i.localStock then [reserveStockStatement i] else []) ++ [deliveryStatement orderId i ids now] ++
      (if i.useSupplier then [supplierOrderStatement orderId i ids now] else []) ++
      entitlement ++
      (if i.item.deliveryComponentType = .download then downloadStatements orderId i.item else []) ++
      (if i.isStock then []
        else activateEntitlementGrantStatements i.item.id now (i.item.deliveryComponentType == .download)) ++
      requestStatements orderId i ids

def orderFulfillmentStatements (orderId : Id) (items : List OrderItem) (ids : Id → ItemIds)
    (now : Time) : Except DomainError (List (Stmt Db)) := do
  let sts ← items.mapM fun i => fulfillmentStatements orderId i (ids i.item.id) now
  return sts.flatten

end Gmshop
