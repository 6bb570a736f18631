import GmshopEdge.Payments.Completion

/-!
# The ends of an unpaid order

`expireStoreOrders` (`shop-orders/server/expiration.ts`), `transitionShopOrder`
(`shop-orders/server/transition.ts`), the balance reserve of an order and its cancellation
(`promotions/server/balance.ts`), and `releaseSaleStatements`
(`redeem-warehouse/server/sale-capacity.ts`), which the first two end with.
-/

namespace Gmshop

open Sql Stmt

/-! ## Stock -/

/-- `status IN ('cancelled', 'expired', 'failed', 'refunded')`. -/
def ShopOrderStatus.releasesStock (st : ShopOrderStatus) : Bool :=
  st == .cancelled || st == .expired || st == .failed || st == .refunded

def itemReleasable (s : Db) (orderId itemId : Id) : Bool :=
  s.itemOf orderId itemId && s.orderIs orderId (·.status.releasesStock)

def releasedEntry (e : StockEntry) : StockEntry := { e with status := .available, orderItemId := none }

def releaseSaleStatement (orderId : Id) : Stmt Db :=
  update Db.stockT (fun s e => e.status == .reserved && e.orderItemId.any (itemReleasable s orderId))
    (fun _ e => releasedEntry e)

/-- `reserveSaleStatements`: the reservation at checkout. -/
def reserveSaleStatement (componentId orderItemId : Id) (quantity : Nat) : Stmt Db :=
  update Db.stockT (fun s e => (firstAvailable s componentId quantity).contains e.id)
    (fun _ e => reservedFor orderItemId e)

/-! ## Expiry -/

def expireBatch (orderId : Id) (version : Nat) (now : Time) : List (Stmt Db) :=
  let expiredNow (s : Db) : Bool :=
    s.orderIs orderId fun o => o.status == .expired && o.version == version + 1
  [updateOrders (fun _ o => orderCas orderId .pendingPayment version o && decide (o.expiresAt ≤ now))
      (fun _ o => setStatus .expired (version + 1) now o),
    update Db.couponsT (fun s c => (s.redemptions.exist fun cr =>
        cr.orderId == orderId && cr.status == .reserved && cr.couponId == c.id) && expiredNow s)
      (fun _ c => { c with usedCount := c.usedCount - 1 }),
    update Db.redemptionsT (fun s cr => cr.orderId == orderId && cr.status == .reserved && expiredNow s)
      (fun _ cr => { cr with status := .released }),
    updateAttempts (fun s a => a.orderId == some orderId &&
        (a.status == .created || a.status == .pending) && expiredNow s)
      (fun _ a => { a with
        status := .expired, failureCode := some .orderExpired, updatedAt := now }),
    insert Db.eventsT .doNothing (fun s => s.fromOrder orderId
        (fun o => o.status == .expired && o.version == version + 1) fun o =>
        { orderId := o.id, eventType := .orderExpired, fromStatus := some .pendingPayment
          toStatus := some .expired, orderVersion := some (version + 1) }),
    releaseSaleStatement orderId]

def expirableOrders (s : Db) (now : Time) (limit : Nat) : List (Id × Nat) :=
  ((List.insertionSort (fun a b : ShopOrder => a.expiresAt < b.expiresAt ∨ (a.expiresAt = b.expiresAt ∧ a.id ≤ b.id))
    (s.orders.rows.filter fun o => o.status == .pendingPayment && decide (o.expiresAt ≤ now))).take
      limit).map fun o => (o.id, o.version)

structure ExpireReply where
  scanned : Nat
  expired : Nat

/-- The orders one after the other, a batch each; how many have expired. -/
def expireOrders (now : Time) : List (Id × Nat) → Call Site Nat
  | [] => pure 0
  | (orderId, version) :: rest => do
    let results ← Prog.commit (.expireStoreOrder orderId version) (expireBatch orderId version now)
    let expired ← expireOrders now rest
    return expired + if 0 < results.headD 0 then 1 else 0

def expireStoreOrders (now : Time) (limit : Nat) : Call Site ExpireReply := do
  let rows ← Prog.query fun s => expirableOrders s now (max 1 (min 100 limit))
  let expired ← expireOrders now rows
  return { scanned := rows.length, expired := expired }

/-! ## Admin transitions -/

def allowedTransitions : ShopOrderStatus → List ShopOrderStatus
  | .pendingPayment => [.paid, .cancelled, .expired, .failed]
  | .paid => [.fulfilling, .refunding, .failed]
  | .fulfilling => [.completed, .refunding, .failed]
  | .completed => [.refunding]
  | .cancelled => []
  | .expired => []
  | .refunding => [.refunded, .completed, .failed]
  | .refunded => []
  | .failed => [.fulfilling, .refunding]

def canTransitionShopOrder (source target : ShopOrderStatus) : Bool :=
  (allowedTransitions source).contains target

def ShopOrderStatus.text : ShopOrderStatus → String
  | .pendingPayment => "pending_payment"
  | .paid => "paid"
  | .fulfilling => "fulfilling"
  | .completed => "completed"
  | .cancelled => "cancelled"
  | .expired => "expired"
  | .refunding => "refunding"
  | .refunded => "refunded"
  | .failed => "failed"

/-- The error of `assertShopOrderTransition`. -/
def orderTransitionInvalid (source target : ShopOrderStatus) : DomainError :=
  ⟨"order_transition_invalid", 409, "Cannot transition an order from " ++ source.text ++ " to " ++ target.text⟩

/-- The batch of an admin's transition; its audit row is left out. -/
def transitionBatch (order : ShopOrder) (toStatus : ShopOrderStatus) (now : Time) : List (Stmt Db) :=
  let moved (o : ShopOrder) : Bool := o.status == toStatus && o.version == order.version + 1
  [updateOrders (fun _ o => orderCas order.id order.status order.version o)
      (fun _ o => if toStatus = .paid then paidOrder (order.version + 1) now o
        else setStatus toStatus (order.version + 1) now o),
    insert Db.eventsT .abort (fun s => s.fromOrder order.id moved fun o =>
      { orderId := o.id, eventType := .statusChanged, fromStatus := some order.status
        toStatus := some toStatus, orderVersion := some (order.version + 1) }),
    insert Db.outboxT .abort (fun s => s.fromOrder order.id moved fun o =>
      { eventType := .shopOrderStatusChanged, aggregateId := o.id
        idempotencyKey := .shopOrderStatus order.id (order.version + 1) }),
    releaseSaleStatement order.id]

/-- `transitionShopOrder`; answers the status the order had. -/
def transitionShopOrder (orderId : Id) (version : Nat) (toStatus : ShopOrderStatus) (now : Time) :
    Call Site ShopOrderStatus := do
  let order? ← Prog.query fun s => s.orders.get? orderId
  match order? with
  | none => Prog.throw orderNotFound
  | some order =>
    if order.version ≠ version then Prog.throw (orderVersionConflict "Order changed; refresh and retry")
    else if canTransitionShopOrder order.status toStatus = false then
      Prog.throw (orderTransitionInvalid order.status toStatus)
    else
      let results ← Prog.commit (.transitionShopOrder orderId toStatus) (transitionBatch order toStatus now)
      if results.headD 0 < 1 then Prog.throw (orderVersionConflict "Order changed; refresh and retry")
      else return order.status

/-! ## The balance reserve -/

/-- `cancelUnstartedBalancePayment`. -/
def cancelUnstartedStatement (orderId : Id) (now : Time) : Stmt Db :=
  updateOrders (fun s o => o.id == orderId && o.status == .pendingPayment &&
      (s.holds.exist fun h => h.orderId == o.id && h.state == .held) &&
      !(s.attempts.exist fun a => a.orderId == some o.id))
    (fun _ o => advanceOrder .cancelled now o)

def cancelUnstartedBalancePayment (orderId : Id) (now : Time) : Call Site Bool := do
  let results ← Prog.commit (.cancelUnstartedBalancePayment orderId) [cancelUnstartedStatement orderId now]
  return decide (0 < results.headD 0)

def walletHoldConflict (message : String) : DomainError := ⟨"wallet_hold_conflict", 409, message⟩

def balanceSplit (order : ShopOrder) (user : User) : OrderBalanceHold :=
  let total : Int := order.totalMinor
  let reward := min (max 0 user.rewardBalanceMinor) total
  let cash := min user.balanceMinor (total - reward)
  { orderId := order.id, userId := user.id, cashMinor := cash.toNat, rewardMinor := reward.toNat
    externalMinor := (total - cash - reward).toNat, state := .held }

def reservableOrder (s : Db) (orderId userId : Id) : Option (ShopOrder × User) := do
  let o ← s.orders.get? orderId
  let u ← s.users.get? userId
  if o.userId = some userId ∧ o.status = .pendingPayment ∧ u.enabled then some (o, u) else none

/-- `reserveOrderBalance`; `none` where there is nothing to reserve. -/
def reserveOrderBalance (orderId userId : Id) (now : Time) : Call Site (Option OrderBalanceHold) := do
  let existing ← Prog.query fun s => s.holds.get? orderId
  match existing with
  | some hold =>
    if hold.userId ≠ userId ∨ hold.state = .released then
      Prog.throw (walletHoldConflict "Order balance reservation is unavailable")
    else return some hold
  | none =>
    let order? ← Prog.query fun s => reservableOrder s orderId userId
    match order? with
    | none => Prog.throw ⟨"order_not_payable", 409, "Order cannot reserve balance"⟩
    | some (order, user) =>
      let hold := balanceSplit order user
      if hold.cashMinor + hold.rewardMinor = 0 then return none
      else
        Prog.tryCatch (do
          let _ ← Prog.commit (.reserveOrderBalance orderId) (insertHold now hold)
          return some hold)
          fun _ => do
            let replay ← Prog.query fun s => (s.holds.get? orderId).filter fun h =>
              h.userId == userId && h.state != .released
            match replay with
            | some hold => return some hold
            | none => Prog.throw (walletHoldConflict "Balance changed; retry checkout")

end Gmshop
