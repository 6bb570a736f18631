import GmshopEdge.Payments.Events

/-!
# Payment attempts

`createShopPayment` (`shop-payments/server/service.ts`): an attempt is claimed under its idempotency
key, then the provider is asked for a payment, and the attempt becomes `pending` or `failed`.

The quote (fees and exchange rate), the channel pricing and what the provider answers are arguments.
-/

namespace Gmshop

open Sql Stmt

/-- `createPaymentSchema`, as far as it is used here. -/
structure CreatePaymentInput where
  orderId : Id
  channelId : Id
  idempotencyKey : Nat

structure CreatePaymentEnv where
  attemptId : Id
  now : Time
  /-- The order was priced for this channel. -/
  channelMatches : Bool
  /-- The amount and currency after the fee and the exchange rate, from the amount to pay. -/
  quote : Minor → Except DomainError (Minor × Nat × Nat)
  /-- The provider's payment id, or why there is none. -/
  answer : Except DomainError ProviderPaymentId
  answeredAt : Time

structure AttemptReply where
  id : Id
  status : AttemptStatus

/-- `assertPaymentIdempotencyScope`, then `presentAttempt`. -/
def presentAttempt (attempt : PaymentAttempt) (input : CreatePaymentInput) : Except DomainError AttemptReply :=
  if attempt.orderId ≠ some input.orderId ∨ attempt.channelId ≠ input.channelId then
    .error ⟨"payment_idempotency_conflict", 409, "Payment idempotency key belongs to another request"⟩
  else .ok { id := attempt.id, status := attempt.status }

def loadPaymentAttemptByIdempotency (s : Db) (key : Nat) : Option PaymentAttempt :=
  s.attempts.rows.find? fun a => a.idempotencyKey == key

/-- The order and the amount to pay: what the held reserve leaves open, or all of it. -/
def paymentCreationContext (s : Db) (input : CreatePaymentInput) : Option (ShopOrder × Minor) := do
  let _ ← (s.channels.get? input.channelId).filter (·.enabled)
  let o ← s.orders.get? input.orderId
  some (o, (((s.holds.get? o.id).filter fun h => h.state == .held).map (·.externalMinor)).getD o.totalMinor)

def claimAttemptBatch (attempt : PaymentAttempt) : List (Stmt Db) :=
  attemptGuards attempt ++ [insert Db.attemptsT .doNothing fun _ => [attempt]]

/-- `paymentCreationFailureStatements`; the audit row is left out. -/
def paymentCreationFailureStatements (attemptId : Id) (code : String) (now : Time) : List (Stmt Db) :=
  [updateAttempts (fun _ a => a.id == attemptId && a.status == .created) (fun _ a => { a with
      status := .failed, failureCode := some (.creation code), updatedAt := now })]

def startPayment (e : CreatePaymentEnv) : Call Site AttemptReply :=
  Prog.tryCatch (do
    let paymentId ← liftExcept e.answer
    let _ ← Prog.commit (.shopPaymentCreated e.attemptId)
      [updateAttempts (fun _ a => a.id == e.attemptId && a.status == .created) (fun _ a => { a with
          providerPaymentId := some paymentId, status := .pending, updatedAt := e.answeredAt })]
    return { id := e.attemptId, status := .pending })
    fun err => do
      let _ ← Prog.commit (.paymentCreationFailure e.attemptId)
        (paymentCreationFailureStatements e.attemptId (failureCode "provider_create_failed" err) e.answeredAt)
      Prog.fail err

def replayAttempt (input : CreatePaymentInput) : Call Site AttemptReply := do
  let replay ← Prog.query fun s => loadPaymentAttemptByIdempotency s input.idempotencyKey
  match replay with
  | none => Prog.throw ⟨"payment_idempotency_conflict", 409, "Payment creation conflicted; retry"⟩
  | some attempt => liftExcept (presentAttempt attempt input)

def newAttempt (input : CreatePaymentInput) (amount : Minor) (quote : Minor × Nat × Nat)
    (e : CreatePaymentEnv) : PaymentAttempt :=
  { id := e.attemptId, orderId := some input.orderId, channelId := input.channelId
    idempotencyKey := input.idempotencyKey, status := .created, amountMinor := quote.1
    currency := quote.2.1, currencyDecimals := quote.2.2, orderAmountMinor := some amount
    updatedAt := e.now }

def claimPayment (input : CreatePaymentInput) (amount : Minor) (e : CreatePaymentEnv) : Call Site AttemptReply := do
  let quote ← liftExcept (e.quote amount)
  let claimed ← Prog.commit (.createShopPayment input.orderId) (claimAttemptBatch (newAttempt input amount quote e))
  if claimed.getLastD 0 ≠ 1 then replayAttempt input else startPayment e

def createShopPayment (input : CreatePaymentInput) (e : CreatePaymentEnv) : Call Site AttemptReply := do
  let existing ← Prog.query fun s => loadPaymentAttemptByIdempotency s input.idempotencyKey
  match existing with
  | some attempt => liftExcept (presentAttempt attempt input)
  | none =>
    let context ← Prog.query fun s => paymentCreationContext s input
    match context with
    | none => Prog.throw ⟨"payment_channel_unavailable", 404, "Payment channel unavailable"⟩
    | some (order, amount) =>
      if order.status ≠ .pendingPayment then Prog.throw ⟨"order_not_payable", 409, "Order cannot be paid"⟩
      else if e.channelMatches = false then Prog.throw ⟨"payment_channel_mismatch", 409,
          "This order was priced for another payment channel"⟩
      else
        let hold ← Prog.query fun s => s.holds.get? input.orderId
        if hold.any (fun h => h.state != .held) then Prog.throw ⟨"payment_reconciliation_required", 409,
            "Order balance reservation is unavailable"⟩
        else claimPayment input amount e

end Gmshop
