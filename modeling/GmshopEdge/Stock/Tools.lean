import GmshopEdge.Fulfillment.System
import GmshopEdge.Refunds.System

/-!
# The stock tools of the restock API

`swapDeliveredCode` (`catalog/server/delivery-swap.ts`) exchanges the delivered code of an order for one
of another item, and `reconcileDeliveredOrder` (`catalog/server/restock-api.ts`) records a code that was
handed out by other means. Both read an order with one delivery, then commit one batch.

Fingerprints, digests and random ids are arguments, as is what `loadItem` says of the two items and
which texts are owned codes. Left out: the audit rows, names and masks, and the supplier order that the
swap's answer repeats.
-/

namespace Gmshop

open Sql Stmt

/-! ## The order -/

structure SingleDelivery where
  orderId : Id
  orderStatus : ShopOrderStatus
  paidMinor : Minor
  totalMinor : Minor
  orderItemId : Id
  sellableItemId : Id
  quantity : Nat
  deliveryId : Id
  deliveryStatus : DeliveryStatus
  deliveryContent : Option DeliveryContent
  redeemSku : Option Nat

def deliveriesOfOrder (s : Db) (orderNumber : Nat) : List SingleDelivery :=
  (s.orders.rows.filter fun o => o.orderNumber == orderNumber).flatMap fun o =>
    (s.items.rows.filter fun i => i.orderId == o.id).flatMap fun i =>
      (s.deliveries.rows.filter fun d => d.orderItemId == i.id).map fun d =>
        { orderId := o.id, orderStatus := o.status, paidMinor := o.paidMinor
          totalMinor := o.totalMinor, orderItemId := i.id, sellableItemId := i.sellableItemId
          quantity := i.quantity, deliveryId := d.id, deliveryStatus := d.status
          deliveryContent := d.contentEncrypted, redeemSku := d.redeemSku }

def SingleDelivery.settled (d : SingleDelivery) : Bool :=
  d.orderStatus == .completed && d.deliveryStatus == .delivered && decide (d.totalMinor ≤ d.paidMinor)

def stockReceipt (s : Db) (scope : ReceiptNamespace) (orderId : Id) (requestRef : Nat) : Option StockReceipt :=
  s.stockReceipts.rows.find? fun x =>
    x.scope == scope && x.orderId == orderId && x.requestRef == requestRef

/-! ## Commit sites -/

/-- What a swap is about to write: the order's item and delivery, the code it gives up, the one it
takes, and its receipt. -/
structure SwapRef where
  orderId : Id
  orderItemId : Id
  deliveryId : Id
  fromComponentId : Id
  toComponentId : Id
  oldEntryId : Id
  candidate : StockEntry
  receipt : StockReceipt
  deriving DecidableEq

structure ReconcileRef where
  orderItemId : Id
  deliveryId : Id
  stockId : Id
  receipt : StockReceipt
  deriving DecidableEq

inductive StockSite where
  | shop (x : Option Site)
  | swapDeliveredCode (r : SwapRef)
  | reconcileDeliveredOrder (r : ReconcileRef)
  deriving DecidableEq

/-! ## `swapDeliveredCode` -/

structure SwapRequest where
  requestRef : Nat
  orderNumber : Nat
  fromComponentId : Id
  toComponentId : Id
  oldFingerprint : Nat
  payloadDigest : Nat
  receiptId : Id
  commerceSecret : Bool
  /-- `loadItem` of both items, and whether they share product and prices. -/
  prices : Except DomainError Unit
  /-- Which texts are owned codes of the warehouse. -/
  ownedContent : StockCode → Bool

structure SwapReply where
  idempotent : Bool
  newCode : StockCode

def swapOrderNotUnique : DomainError :=
  ⟨"swap_order_not_unique", 409, "Order must contain exactly one delivery"⟩
def swapOrderNotDelivered : DomainError :=
  ⟨"swap_order_not_delivered", 409, "Order is not a completed paid single delivery"⟩
def swapStateChanged (message : String) : DomainError := ⟨"swap_state_changed", 409, message⟩
def swapTargetContentInvalid (message : String) : DomainError :=
  ⟨"swap_target_content_invalid", 409, message⟩

def loadSwapOrder (s : Db) (orderNumber : Nat) : Except DomainError SingleDelivery :=
  match deliveriesOfOrder s orderNumber with
  | [d] => if d.settled && d.quantity == 1 then .ok d else .error swapOrderNotDelivered
  | _ => .error swapOrderNotUnique

def deliveredEntries (s : Db) (orderItemId : Id) : List StockEntry :=
  s.stock.rows.filter fun e => e.orderItemId == some orderItemId && e.status == .delivered

def swapCandidate (s : Db) (componentId : Id) : Option StockEntry :=
  ((List.insertionSort entryOrder (availableEntries s componentId)).filter (·.fromWarehouse)).head?

def swapGate (s : Db) (r : SwapRef) : Bool :=
  (s.stock.exist fun e => e.id == r.candidate.id && e.status == .available) &&
    (s.stock.exist fun e => e.id == r.oldEntryId && e.status == .delivered && e.orderItemId == some r.orderItemId) &&
    (s.deliveries.exist fun d => d.id == r.deliveryId && d.status == .delivered) &&
    (s.items.exist fun i => i.id == r.orderItemId && i.sellableItemId == r.fromComponentId)

def swapWritten (s : Db) (r : SwapRef) : Bool := s.stockReceipts.exist fun x => x.id == r.receipt.id

def swapBatch (r : SwapRef) : List (Stmt Db) :=
  [insert Db.stockReceiptsT .abort fun s => if swapGate s r then [r.receipt] else [],
    update Db.stockT (fun s e => e.id == r.candidate.id && swapWritten s r)
      (fun _ e => { e with status := .delivered, orderItemId := some r.orderItemId }),
    update Db.stockT (fun s e => e.id == r.oldEntryId && swapWritten s r)
      (fun _ e => { e with status := .disabled, orderItemId := none }),
    update Db.deliveriesT (fun s d => d.id == r.deliveryId && swapWritten s r) (fun _ d => { d with
        contentEncrypted := some (.codes [r.candidate.code]), redeemSku := r.candidate.redeemSku }),
    update Db.itemsT (fun s i => i.id == r.orderItemId && swapWritten s r) (fun _ i => { i with
        sellableItemId := r.toComponentId
        deliveryComponentId := if i.deliveryComponentId = r.fromComponentId then r.toComponentId
          else i.deliveryComponentId })]

def swapResult (d : SingleDelivery) (q : SwapRequest) (idempotent : Bool) : Except DomainError SwapReply :=
  if d.sellableItemId ≠ q.toComponentId then .error (swapStateChanged "Order no longer matches the recorded swap")
  else match d.deliveryContent with
    | none => .error (swapStateChanged "Order no longer matches the recorded swap")
    | some (.codes [c]) =>
      if q.ownedContent c then .ok { idempotent := idempotent, newCode := c }
      else .error (swapTargetContentInvalid "Delivered content is not an owned redeem CDK")
    | some _ => .error (swapTargetContentInvalid "Delivered content is not an owned redeem CDK")

def performSwap (q : SwapRequest) (d : SingleDelivery) : Prog Db StockSite DomainError SwapReply := do
  if d.sellableItemId ≠ q.fromComponentId then
    Prog.throw ⟨"swap_source_mismatch", 409, "Order is not for the source item"⟩
  else match q.prices with
  | .error err => Prog.throw err
  | .ok () => do
    let old ← Prog.query fun s => deliveredEntries s d.orderItemId
    match old with
    | [oldEntry] =>
      if oldEntry.contentFingerprint ≠ q.oldFingerprint then
        Prog.throw ⟨"swap_old_secret_mismatch", 409, "Supplied CDK is not the delivered stock"⟩
      else
        let candidate? ← Prog.query fun s => swapCandidate s q.toComponentId
        match candidate? with
        | none => Prog.throw ⟨"swap_target_out_of_stock", 409, "Target item has no owned CDK available"⟩
        | some candidate =>
          if q.ownedContent candidate.code = false then
            Prog.throw (swapTargetContentInvalid "Target stock is not an owned redeem CDK")
          else
            let r : SwapRef :=
              { orderId := d.orderId, orderItemId := d.orderItemId, deliveryId := d.deliveryId
                fromComponentId := q.fromComponentId, toComponentId := q.toComponentId
                oldEntryId := oldEntry.id, candidate := candidate
                receipt :=
                  { id := q.receiptId, scope := .deliverySwap, orderId := d.orderId
                    requestRef := q.requestRef, payloadDigest := q.payloadDigest } }
            let _ ← Prog.commit (.swapDeliveredCode r) (swapBatch r)
            let written ← Prog.query fun s => swapWritten s r
            if written = false then Prog.throw (swapStateChanged "Order or stock changed during swap")
            else
              let after ← Prog.query fun s => loadSwapOrder s q.orderNumber
              match after.bind fun d => swapResult d q false with
              | .ok reply => return reply
              | .error err => Prog.throw err
    | _ => Prog.throw ⟨"swap_old_stock_invalid", 409, "Order must hold exactly one delivered stock entry"⟩

def swapDeliveredCode (q : SwapRequest) : Prog Db StockSite DomainError SwapReply := do
  if q.fromComponentId = q.toComponentId then Prog.throw ⟨"swap_same_item", 400, "Swap target must differ"⟩
  else if q.commerceSecret = false then
    Prog.throw ⟨"inventory_secret_unavailable", 503, "Inventory encryption secret is unavailable"⟩
  else
    let order ← Prog.query fun s => loadSwapOrder s q.orderNumber
    match order with
    | .error err => Prog.throw err
    | .ok d => do
      let receipt ← Prog.query fun s => stockReceipt s .deliverySwap d.orderId q.requestRef
      match receipt with
      | some x =>
        if x.payloadDigest ≠ q.payloadDigest then Prog.throw ⟨"swap_request_conflict", 409,
            "Request reference already belongs to another payload"⟩
        else match swapResult d q true with
          | .ok reply => return reply
          | .error err => Prog.throw err
      | none => performSwap q d

/-! ## `reconcileDeliveredOrder` -/

structure ReconcileRequest where
  requestRef : Nat
  orderNumber : Nat
  fingerprint : Nat
  payloadDigest : Nat
  receiptId : Id
  commerceSecret : Bool
  /-- `inventoryImportSchema` accepts the secret. -/
  valid : Bool

structure ReconcileReply where
  idempotent : Bool

def restockReconcileConflict : DomainError :=
  ⟨"restock_reconcile_conflict", 409, "Delivery synchronization conflicted with another update"⟩

def reconcileStock (s : Db) (componentId fingerprint : Nat) : Option StockEntry :=
  s.stock.rows.find? fun e => e.sellableItemId == componentId &&
    e.contentFingerprint == fingerprint && e.status == .available

/-- The content is made of the secret of the request, the text the entry was imported with. -/
def reconcileBatch (r : ReconcileRef) : List (Stmt Db) :=
  [insert Db.stockReceiptsT .abort fun _ => [r.receipt],
    update Db.stockT (fun _ e => e.id == r.stockId && e.status == .available)
      (fun _ e => { e with status := .delivered, orderItemId := some r.orderItemId }),
    update Db.deliveriesT (fun _ d => d.id == r.deliveryId && d.status == .delivered) (fun _ d => { d with
        contentEncrypted := some (.codes [⟨r.stockId, false⟩]), errorCode := none })]

def reconcileDeliveredOrder (q : ReconcileRequest) :
    Prog Db StockSite DomainError ReconcileReply := do
  let rows ← Prog.query fun s => deliveriesOfOrder s q.orderNumber
  match rows with
  | [d] =>
    if d.settled = false then
      Prog.throw ⟨"restock_order_not_delivered", 409, "Order is not a completed paid delivery"⟩
    else if d.redeemSku.isSome then
      Prog.throw ⟨"restock_owned_delivery_required", 409,
        "Owned redemption deliveries must use automatic recovery"⟩
    else if q.valid = false then Prog.throw ⟨"restock_invalid", 400, ""⟩
    else if q.commerceSecret = false then
      Prog.throw ⟨"inventory_secret_unavailable", 503, "Inventory encryption secret is unavailable"⟩
    else
      let existing ← Prog.query fun s => stockReceipt s .restockDeliverySync d.orderId q.requestRef
      match existing with
      | some x =>
        if x.payloadDigest ≠ q.payloadDigest then
          Prog.throw ⟨"restock_request_conflict", 409,
            "Request reference already belongs to another payload"⟩
        else return { idempotent := true }
      | none =>
        let stock ← Prog.query fun s => reconcileStock s d.sellableItemId q.fingerprint
        match stock with
        | none => Prog.throw ⟨"restock_inventory_not_available", 409,
            "Matching owned inventory is not available"⟩
        | some e =>
          let r : ReconcileRef :=
            { orderItemId := d.orderItemId, deliveryId := d.deliveryId, stockId := e.id
              receipt :=
                { id := q.receiptId, scope := .restockDeliverySync, orderId := d.orderId
                  requestRef := q.requestRef, payloadDigest := q.payloadDigest } }
          let results ← Prog.commit (.reconcileDeliveredOrder r) (reconcileBatch r)
          if results.getD 1 0 < 1 ∨ results.getD 2 0 < 1 then Prog.throw restockReconcileConflict
          else return { idempotent := false }
  | _ => Prog.throw ⟨"restock_order_not_unique", 409, "Order must contain exactly one delivery"⟩

end Gmshop
