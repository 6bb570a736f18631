import GmshopEdge.Fulfillment.Calls
import GmshopEdge.Refunds.Statements

/-!
# Refunds and deliveries side by side

The delivery calls, and the system in which they interleave with the refund calls.
-/

namespace Gmshop

open Sql

inductive DeliveryCall where
  | process (deliveryId : Id) (e : DeliveryEnv)
  | start (deliveryId : Id) (now : Time)
  | complete (deliveryId : Id) (content : Option Nat) (commerceSecret : Bool) (now : Time)
  | retry (deliveryId : Id) (now : Time)

def DeliveryCall.code : DeliveryCall → Call Site DeliveryReply
  | .process d e => processDelivery d e
  | .start d now => startManualDelivery d now
  | .complete d content commerceSecret now => completeManualDelivery d content commerceSecret now
  | .retry d now => retryDelivery d now

theorem DeliveryCall.bare {τ : Type} {S : Spec Db Site τ} {Link : Id → Id → Id → Db → Prop}
    (h : DeliverySteps S Link) (c : DeliveryCall) (s : Db) : Prog.Bare S c.code s := by
  cases c with
  | process d e => exact processDelivery_bare h d e
  | start d now => exact startManualDelivery_bare h d now
  | complete d content secret now => exact completeManualDelivery_bare h d content secret now
  | retry d now => exact retryDelivery_bare h d now

def refundOrDelivery : RefundCall ⊕ DeliveryCall → Call Site (RefundReply ⊕ DeliveryReply)
  | .inl c => do
    let r ← c.code
    return .inl r
  | .inr c => do
    let r ← c.code
    return .inr r

/-! ## Concrete runs -/

def offlineEnv (now : Time) : DeliveryEnv where
  upgrade := ⟨now, now, .error "", now⟩
  agent := ⟨now, now, false, 0, false, none, now, false⟩
  now := now
  commerceSecret := true
  warehouseToken := .ok ()
  conversion := fun _ => .ok ()
  decrypts := true

def paidOrderDb : Db where
  orders := .of [{ id := 1, status := .paid, version := 1, totalMinor := 100, paidMinor := 100 }]
  attempts := .of [{ id := 1, orderId := some 1, channelId := 1, idempotencyKey := 1
                     status := .succeeded, amountMinor := 100 }]
  channels := .of [{ id := 1, provider := .stripe, credentialEncrypted := some 0 }]

def paidDownloadDb : Db :=
  { paidOrderDb with
    items := .of [{ id := 1, orderId := 1, sellableItemId := 1, deliveryComponentId := 1
                    deliveryComponentType := .download, quantity := 1 }]
    deliveries := .of [{ id := 1, orderItemId := 1, deliveryType := .download, status := .pending }] }

def fullRefund (refundId key now : Nat) : RefundCall :=
  .request ⟨1, 100, key⟩ ⟨refundId, now, fun _ => 2, true⟩

def answered (refundId : Id) (answer : ProviderAnswer) (now : Time) : RefundCall :=
  .process refundId ⟨true, now, answer, now + 1⟩

end Gmshop
