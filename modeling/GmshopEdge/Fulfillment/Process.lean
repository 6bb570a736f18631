import GmshopEdge.Fulfillment.Access
import GmshopEdge.Fulfillment.RefundCancellation

/-!
# Delivery

`processDelivery`, `startManualDelivery` and `completeManualDelivery`
(`fulfillment/server/process.ts`), the conversion of warehouse stock they may run first
(`redeem-warehouse/server/convert-delivery.ts`), and the admin's `retryDelivery`
(`fulfillment/server/admin.ts`).

The clock, the warehouse's answers and whether secrets decrypt are arguments. The sale notice after
a delivery is left out.
-/

namespace Gmshop

open Sql Stmt

/-! ## What a call reads -/

structure DeliveryContext extends DeliveryRef where
  status : DeliveryStatus
  deliveryType : ComponentType
  contentEncrypted : Option DeliveryContent
  quantity : Nat
  redeemSku : Option Nat

def deliveryContext (s : Db) (deliveryId : Id) : Option DeliveryContext := do
  let d ← s.deliveries.get? deliveryId
  let i ← s.items.get? d.orderItemId
  let o ← s.orders.get? i.orderId
  some
    { id := d.id, orderItemId := d.orderItemId, orderId := o.id, orderStatus := o.status
      orderVersion := o.version, status := d.status, deliveryType := d.deliveryType
      contentEncrypted := d.contentEncrypted, quantity := i.quantity, redeemSku := d.redeemSku }

/-- `ManualDeliveryContext`: the same, with the item's fulfilment source. -/
def manualDeliveryContext (s : Db) (deliveryId : Id) : Option (DeliveryContext × FulfillmentSource) := do
  let c ← deliveryContext s deliveryId
  let i ← s.items.get? c.orderItemId
  let item ← s.sellableItems.get? i.sellableItemId
  some (c, item.fulfillmentSource)

/-- The delivery records of the order that are not delivered, the current one left out. -/
def remainingDeliveries (s : Db) (orderId currentDeliveryId : Id) : Nat :=
  s.deliveries.count fun d => undelivered s orderId d && d.id != currentDeliveryId

/-- `nextOrderStatus`, after its count. -/
def nextOrderStatus (remaining : Nat) : ShopOrderStatus :=
  if remaining = 0 then .completed else .fulfilling

/-- `closedOrderStatuses`. -/
def ShopOrderStatus.closed (st : ShopOrderStatus) : Bool :=
  st == .refunded || st == .cancelled || st == .expired

def deliveryNotFound : DomainError := ⟨"delivery_not_found", 404, "Delivery not found"⟩
def deliverySecretUnavailable : DomainError :=
  ⟨"delivery_secret_unavailable", 503, "Delivery configuration unavailable"⟩
def deliveryNotManual : DomainError :=
  ⟨"delivery_not_manual", 409, "Delivery is not configured for manual fulfillment"⟩
def manualDeliveryNotAwaitingSupply (message : String) : DomainError :=
  ⟨"manual_delivery_not_awaiting_supply", 409, message⟩
def manualDeliveryOrderNotReady : DomainError :=
  ⟨"manual_delivery_order_not_ready", 409, "Order is not ready for manual processing"⟩

/-! ## Warehouse stock -/

def reservedEntries (s : Db) (orderItemId : Id) : List StockEntry :=
  List.insertionSort (fun a b => a.createdAt < b.createdAt ∨ (a.createdAt = b.createdAt ∧ a.id ≤ b.id))
    (s.stock.rows.filter fun e => e.orderItemId == some orderItemId && e.status == .reserved)

def convertBatch (entryId orderItemId : Id) (sku : Nat) : List (Stmt Db) :=
  [update Db.stockT (fun s e => e.id == entryId && e.orderItemId == some orderItemId && e.status == .reserved &&
      e.redeemSku.isNone && s.itemDeliverable orderItemId)
    (fun _ e => { e with redeemSku := some sku, converted := true })]

/-- The text that `convertReservedStock` answers for an entry. -/
def convertedCode (entry : StockEntry) : StockCode :=
  if entry.redeemSku.isNone then ⟨entry.id, true⟩ else entry.code

/-- `convertReservedStock`. `answer` is the warehouse's, or the error that its content or its
marker ends in. -/
def convertReservedStock (entry : StockEntry) (orderItemId : Id) (sku : Nat)
    (answer : Except DomainError Unit) : Call Site Unit :=
  match entry.redeemSku, answer with
  | some k, answer =>
    if k ≠ sku then Prog.throw ⟨"redeem_delivery_sku_conflict", 409, "Inventory plan mismatch"⟩
    else match answer with
      | .ok () => pure ()
      | .error err => Prog.throw err
  | none, .error err => Prog.throw err
  | none, .ok () => do
    let changed ← Prog.commit (.convertReservedStock entry.id) (convertBatch entry.id orderItemId sku)
    if changed.headD 0 = 1 then pure ()
    else
      let replay ← Prog.query fun s => s.stock.exist fun e => e.id == entry.id &&
        e.orderItemId == some orderItemId && e.status == .reserved && e.redeemSku == some sku
      if replay then pure ()
      else Prog.throw ⟨"redeem_delivery_state_changed", 409, "Inventory ownership changed"⟩

def convertEntries (orderItemId : Id) (sku : Nat) (answer : Id → Except DomainError Unit) :
    List StockEntry → Call Site Unit
  | [] => pure ()
  | e :: es => do
    convertReservedStock e orderItemId sku (answer e.id)
    convertEntries orderItemId sku answer es

def recordOwnedDeliveryFailure (deliveryId : Id) (code : String) : Call Site Unit := do
  let _ ← Prog.commit (.recordOwnedDeliveryFailure deliveryId)
    [update Db.deliveriesT (fun _ d => d.id == deliveryId && d.status.queued) (fun _ d => { d with
        attemptCount := d.attemptCount + 1, errorCode := some (.thrown code) })]

/-- Run `p`; a failure is recorded on the delivery and thrown on. -/
def recordingFailure {α : Type} (deliveryId : Id) (fallback : String) (p : Call Site α) : Call Site α :=
  Prog.tryCatch p fun err => do
    recordOwnedDeliveryFailure deliveryId (failureCode fallback err)
    Prog.fail err

/-! ## `processDelivery` -/

/-- The arguments of a delivery run that come from outside the database. -/
structure DeliveryEnv where
  upgrade : UpgradeEnv
  agent : AgentEnv
  now : Time
  commerceSecret : Bool
  /-- The warehouse token, or why it does not load. -/
  warehouseToken : Except DomainError Unit
  /-- The warehouse's answer for each entry. -/
  conversion : Id → Except DomainError Unit
  /-- Every entry's content decrypts. -/
  decrypts : Bool

def redeemReady (s : Db) (d : DeliveryRecord) : Bool :=
  s.items.exist fun i => i.id == d.orderItemId &&
    s.stock.count (fun e => e.orderItemId == some d.orderItemId && e.status == .reserved &&
      e.redeemSku == d.redeemSku && e.redeemSku.isSome) == i.quantity

def deliveredRecord (content : Option DeliveryContent) (d : DeliveryRecord) : DeliveryRecord :=
  { d with
    status := .delivered, contentEncrypted := content, attemptCount := d.attemptCount + 1
    nextAttemptAt := none, errorCode := none }

def orderProgressStatements (d : DeliveryRef) (remaining : Nat) (now : Time) : List (Stmt Db) :=
  let nextStatus := nextOrderStatus remaining
  let nextVersion := d.orderVersion + 1
  [updateOrders (fun _ o => orderCas d.orderId d.orderStatus d.orderVersion o)
      (fun _ o => setStatus nextStatus nextVersion now o),
    insert Db.eventsT .abort fun s =>
      s.fromOrder d.orderId (fun o => o.status == nextStatus && o.version == nextVersion) fun o =>
        { orderId := o.id, eventType := .deliveryProgressed, fromStatus := some d.orderStatus
          toStatus := some nextStatus, orderVersion := some nextVersion },
    deliveryReadyStatement d.id]

/-- `delivery.requested` rows of the record that wait are done. -/
def settleDeliveryRequest (deliveryId : Id) : Stmt Db :=
  update Db.outboxT (fun _ e => e.eventType == .deliveryRequested && e.aggregateId == deliveryId &&
      openOutbox e.status)
    (fun _ e => { e with status := .published })

/-- The batch of `processDelivery`. -/
def deliverBatch (c : DeliveryContext) (content : Option DeliveryContent) (remaining : Nat)
    (now : Time) : List (Stmt Db) :=
  [update Db.deliveriesT (fun s d => d.id == c.id && d.status.queued && s.itemDeliverable d.orderItemId &&
        (c.redeemSku.isNone || redeemReady s d))
      (fun _ d => deliveredRecord content d),
    -- a lost delivery swap aborts before anything else is written
    abortWhen (fun _ s => !(s.deliveries.exist fun d => d.id == c.id && d.status == .delivered))
      (if c.redeemSku.isSome then "redeem_delivery_conflict" else "delivery_conflict")] ++
    (if c.deliveryType = .stock then
      [update Db.stockT (fun _ e => e.orderItemId == some c.orderItemId && e.status == .reserved)
        (fun _ e => { e with status := .delivered })]
    else []) ++
    orderProgressStatements c.toDeliveryRef remaining now ++
    [settleDeliveryRequest c.id] ++
    (if c.deliveryType = .stock then activateEntitlementGrantStatements c.orderItemId now else [])

/-- The content of a stock delivery: its entries are complete, converted where they have to be, and
decrypt. -/
def stockContent (c : DeliveryContext) (e : DeliveryEnv) : Call Site (Option DeliveryContent) := do
  if e.commerceSecret then
    let entries ← Prog.query fun s => reservedEntries s c.orderItemId
    if entries.length ≠ c.quantity then
      Prog.throw ⟨"delivery_inventory_invalid", 409, "Reserved inventory is incomplete"⟩
    else match c.redeemSku with
      | some sku => do
        recordingFailure c.id "redeem_delivery_conversion_failed" (match e.warehouseToken with
          | .error err => Prog.throw err
          | .ok () => convertEntries c.orderItemId sku e.conversion entries)
        return some (.codes (entries.map convertedCode))
      | none =>
        if e.decrypts then return some (.codes (entries.map (·.code)))
        else Prog.throw (plainError "decryptSecret")
  else Prog.throw deliverySecretUnavailable

def closeUndeliverableDelivery (deliveryId : Id) : Call Site DeliveryReply := do
  let _ ← Prog.commit (.closeUndeliverableDelivery deliveryId)
    [update Db.deliveriesT (fun _ d => d.id == deliveryId && d.status.queued) (fun _ d => { d with
          status := .failed, errorCode := some .orderNotDeliverable, nextAttemptAt := none }),
      settleDeliveryRequest deliveryId]
  return { status := .failed, duplicate := some false }

def commitDelivery (c : DeliveryContext) (content : Option DeliveryContent) (remaining : Nat) (now : Time) :
    Call Site (List Nat) :=
  let commit := Prog.commit (.processDelivery c.toDeliveryRef remaining) (deliverBatch c content remaining now)
  if c.redeemSku.isSome then recordingFailure c.id "redeem_delivery_finalization_failed" commit
  else commit

def finishDelivery (c : DeliveryContext) (content : Option DeliveryContent) (now : Time) :
    Call Site DeliveryReply := do
  let remaining ← Prog.query fun s => remainingDeliveries s c.orderId c.id
  let results ← commitDelivery c content remaining now
  if results.headD 0 < 1 then return { status := .delivered, duplicate := some true }
  else
    return { status := .delivered, orderStatus := some (nextOrderStatus remaining)
             duplicate := some false }

/-- The part of `processDelivery` behind the upgrade and agent branches. -/
def processOrderDelivery (deliveryId : Id) (e : DeliveryEnv) : Call Site DeliveryReply := do
  let delivery? ← Prog.query fun s => deliveryContext s deliveryId
  match delivery? with
  | none => Prog.throw deliveryNotFound
  | some c =>
    if c.status = .delivered then return { status := .delivered, duplicate := some true }
    else if c.status = .failed then Prog.throw ⟨"delivery_failed", 409, "Delivery requires administrator recovery"⟩
    else if c.orderStatus.deliverable = false then
      if c.orderStatus.closed then closeUndeliverableDelivery c.id
      else Prog.throw ⟨"delivery_order_not_ready", 409, "Order is not ready for delivery"⟩
    else if c.deliveryType = .stock then do
      let content ← stockContent c e
      finishDelivery c content e.now
    else finishDelivery c c.contentEncrypted e.now

def processDelivery (deliveryId : Id) (e : DeliveryEnv) : Call Site DeliveryReply := do
  let upgrade ← processUpgradeDelivery deliveryId e.upgrade
  match upgrade with
  | some reply => return reply
  | none =>
    let agent ← processAgentDelivery deliveryId e.agent
    match agent with
    | some reply => return reply
    | none => processOrderDelivery deliveryId e

/-! ## Manual deliveries -/

def isManual (c : DeliveryContext) (source : FulfillmentSource) : Bool :=
  c.deliveryType == .stock && source == .manual && c.redeemSku.isNone

def startManualBatch (d : DeliveryRef) (now : Time) : List (Stmt Db) :=
  [update Db.deliveriesT (fun _ r => r.id == d.id && r.status == .awaitingSupply)
      (fun _ r => { r with status := .processing }),
    updateOrders (fun _ o => orderCas d.orderId d.orderStatus d.orderVersion o)
      (fun _ o => setStatus .fulfilling (d.orderVersion + 1) now o),
    insert Db.eventsT .abort fun s =>
      s.fromOrder d.orderId (fun o => o.status == .fulfilling && o.version == d.orderVersion + 1) fun o =>
        { orderId := o.id, eventType := .fulfillmentStarted, fromStatus := some d.orderStatus
          toStatus := some .fulfilling, orderVersion := some (d.orderVersion + 1) }]

def startManualDelivery (deliveryId : Id) (now : Time) : Call Site DeliveryReply := do
  let delivery? ← Prog.query fun s => manualDeliveryContext s deliveryId
  match delivery? with
  | none => Prog.throw deliveryNotFound
  | some (c, source) =>
    if isManual c source = false then Prog.throw deliveryNotManual
    else if c.status = .processing then
      return { status := .processing, orderStatus := some c.orderStatus, duplicate := some true }
    else if c.status ≠ .awaitingSupply then
      Prog.throw (manualDeliveryNotAwaitingSupply "Manual delivery is not awaiting supply")
    else if c.orderStatus.deliverable = false then Prog.throw manualDeliveryOrderNotReady
    else
      let results ← Prog.commit (.startManualDelivery c.toDeliveryRef) (startManualBatch c.toDeliveryRef now)
      if results.headD 0 ≠ 1 ∨ results.tail.headD 0 ≠ 1 then
        Prog.throw ⟨"manual_delivery_start_conflict", 409, "Manual delivery changed concurrently"⟩
      else return { status := .processing, orderStatus := some .fulfilling, duplicate := some false }

/-- `status IN ('awaiting_supply', 'processing')`. -/
def DeliveryStatus.manualOpen (st : DeliveryStatus) : Bool :=
  st == .awaitingSupply || st == .processing

def completeManualBatch (d : DeliveryRef) (content : Nat) (remaining : Nat) (now : Time) : List (Stmt Db) :=
  [update Db.deliveriesT (fun _ r => r.id == d.id && r.status.manualOpen)
      (fun _ r => deliveredRecord (some (.text content)) r)] ++
    orderProgressStatements d remaining now ++ activateEntitlementGrantStatements d.orderItemId now

/-- `content` is the encrypted content, or none where the trimmed text is empty or too long. -/
def completeManualDelivery (deliveryId : Id) (content : Option Nat) (commerceSecret : Bool)
    (now : Time) : Call Site DeliveryReply := do
  match content with
  | none => Prog.throw ⟨"manual_delivery_content_invalid", 400,
      "Manual delivery content is required and must not exceed 64000 characters"⟩
  | some content =>
    let delivery? ← Prog.query fun s => manualDeliveryContext s deliveryId
    match delivery? with
    | none => Prog.throw deliveryNotFound
    | some (c, source) =>
      if c.status = .delivered then return { status := .delivered, duplicate := some true }
      else if isManual c source = false then Prog.throw deliveryNotManual
      else if c.status.manualOpen = false then Prog.throw (manualDeliveryNotAwaitingSupply
          "Manual delivery is not awaiting supply or processing")
      else if c.orderStatus.deliverable = false then Prog.throw manualDeliveryOrderNotReady
      else if commerceSecret = false then Prog.throw deliverySecretUnavailable
      else
        let remaining ← Prog.query fun s => remainingDeliveries s c.orderId c.id
        let results ← Prog.commit (.completeManualDelivery c.toDeliveryRef remaining)
          (completeManualBatch c.toDeliveryRef content remaining now)
        if results.headD 0 < 1 then return { status := .delivered, duplicate := some true }
        else
          return { status := .delivered, orderStatus := some (nextOrderStatus remaining)
                   duplicate := some false }

/-! ## The admin's retry -/

/-- `retryDeliveryFn`: a failed record waits again and is requested once more. -/
def retryDelivery (deliveryId : Id) (now : Time) : Call Site DeliveryReply := do
  let delivery? ← Prog.query fun s => s.deliveries.get? deliveryId
  match delivery? with
  | none => Prog.throw deliveryNotFound
  | some d =>
    if d.status ≠ .failed then Prog.throw ⟨"delivery_not_retryable", 409, "Only failed deliveries can be retried"⟩
    else
      let _ ← Prog.commit (.retryDelivery d.id)
        [update Db.deliveriesT (fun _ r => r.id == d.id && r.status == .failed) (fun _ r => { r with
              status := .pending, errorCode := none, nextAttemptAt := some now }),
          insert Db.outboxT .abort fun _ =>
            [{ eventType := .deliveryRequested, aggregateId := d.id
               idempotencyKey := .deliveryRetry d.id d.attemptCount, nextAttemptAt := some now }]]
      return { status := .pending }

end Gmshop
