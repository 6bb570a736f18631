import GmshopEdge.Db.Schema

/-!
# Cancelling the open fulfilment of a refunded order

`cancelOpenFulfillmentStatements` (`fulfillment/server/refund-cancellation.ts`). The statements run
inside the refund's batch after the order row was updated, and only touch rows while the order is
`refunded`.
-/

namespace Gmshop

open Sql Stmt

/-- `EXISTS (SELECT 1 FROM shop_orders WHERE id = ? AND status = 'refunded')`. -/
def orderRefunded (s : Db) (orderId : Id) : Bool := s.orderIs orderId fun o => o.status == .refunded

def openSupplierState (st : SupplierOrderState) : Bool :=
  st == .pending || st == .selecting || st == .submitting || st == .uncertain || st == .failed

def openOutbox (st : OutboxStatus) : Bool := st == .pending || st == .processing

def cancelOpenFulfillmentStatements (orderId : Id) : List (Stmt Db) :=
  [update Db.supplierOrdersT
      (fun s so => so.orderId == orderId && openSupplierState so.state && orderRefunded s orderId)
      (fun _ so => { so with state := .refunded, nextRetryAt := none }),
    update Db.outboxT (fun s e => e.eventType == .supplierRequested &&
        (s.supplierOrders.exist fun so => so.orderId == orderId && so.id == e.aggregateId) &&
        openOutbox e.status && orderRefunded s orderId)
      (fun _ e => { e with status := .published }),
    update Db.deliveriesT (fun s d => s.itemOf orderId d.orderItemId &&
        (d.status == .awaitingSupply || d.status == .pending) && orderRefunded s orderId)
      (fun _ d => { d with
        status := .failed, errorCode := some .orderRefunded, nextAttemptAt := none }),
    update Db.outboxT (fun s e => e.eventType == .deliveryRequested &&
        (s.deliveries.exist fun d => d.id == e.aggregateId && s.itemOf orderId d.orderItemId &&
          d.status == .failed && d.errorCode == some .orderRefunded) &&
        openOutbox e.status && orderRefunded s orderId)
      (fun _ e => { e with status := .published })]

theorem cancelOpenFulfillmentStatements_keep {γ : Type} {g : Db → γ} (orderId : Id)
    (hs : ∀ s t, g (Db.supplierOrdersT.set s t) = g s) (ho : ∀ s t, g (Db.outboxT.set s t) = g s)
    (hd : ∀ s t, g (Db.deliveriesT.set s t) = g s) :
    ∀ st ∈ cancelOpenFulfillmentStatements orderId, Keeps g st := by
  intro st hst
  exact each_four (update_keeps hs) (update_keeps ho) (update_keeps hd) (update_keeps ho) _ hst

end Gmshop
