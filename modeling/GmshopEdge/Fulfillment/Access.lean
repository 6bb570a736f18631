import GmshopEdge.Entitlements.Ledger

/-!
# Upgrade and agent deliveries

`processUpgradeDelivery` (`gpt-upgrade/server/fulfillment.ts`) and `processAgentDelivery`
(`agent-access/server/fulfillment.ts`), which `processDelivery` asks first. Both take a lease on
their own row, call a remote service and then finish the delivery in one batch.

The remote answers, the clock and whether the secrets decrypt are arguments. The remote domain, the
mail queue and the owner alert are left out.
-/

namespace Gmshop

open Sql Stmt

/-! ## Shared pieces -/

inductive DeliveryReport where
  | waiting | pending | processing | delivered | failed | needsReview | cancelled | revoked

structure DeliveryReply where
  status : DeliveryReport
  orderStatus : Option ShopOrderStatus := none
  duplicate : Option Bool := none

/-- `status IN ('pending', 'processing')` of a delivery record. -/
def DeliveryStatus.queued (st : DeliveryStatus) : Bool := st == .pending || st == .processing

def undelivered (s : Db) (orderId : Id) (d : DeliveryRecord) : Bool :=
  s.itemOf orderId d.orderItemId && d.status != .delivered

/-- `UPDATE shop_orders SET status = 'completed' …` once every delivery of the order is through. -/
def completeOrderStatement (orderId : Id) (now : Time) : Stmt Db :=
  updateOrders (fun s o => o.id == orderId && o.status.deliverable && !(s.deliveries.exist (undelivered s o.id)))
    (fun _ o => advanceOrder .completed now o)

/-- The `delivery.ready` outbox row of a delivered record. -/
def deliveryReadyStatement (deliveryId : Id) : Stmt Db :=
  insert Db.outboxT .doNothing fun s =>
    (s.deliveries.rows.filter fun d => d.id == deliveryId && d.status == .delivered).map fun d =>
      { eventType := .deliveryReady, aggregateId := d.id, idempotencyKey := .deliveryReady d.id }

/-! ## Upgrades -/

/-- `deliverable`: the order is open, paid and no refund of it counts. -/
def upgradeDeliverable (s : Db) (itemId : Id) : Bool :=
  s.items.exist fun i => i.id == itemId && s.orderIs i.orderId (fun o => o.status.deliverable && o.paidMinor != 0) &&
    !(s.refunds.exist fun r => r.orderId == i.orderId && r.status.live)

structure UpgradeRow where
  orderItemId : Id
  state : UpgradeState
  attemptCount : Nat
  nextAttemptAt : Time
  orderId : Id
  orderStatus : ShopOrderStatus
  paidMinor : Minor
  refundExists : Bool

def upgradeRow (s : Db) (deliveryId : Id) : Option UpgradeRow := do
  let d ← s.deliveries.get? deliveryId
  let u ← s.upgradeOrders.get? d.orderItemId
  let i ← s.items.get? d.orderItemId
  let o ← s.orders.get? i.orderId
  some
    { orderItemId := u.orderItemId, state := u.state, attemptCount := u.attemptCount
      nextAttemptAt := u.nextAttemptAt, orderId := o.id, orderStatus := o.status
      paidMinor := o.paidMinor
      refundExists := s.refunds.exist fun r => r.orderId == o.id && r.status.live }

/-- The arguments of an upgrade run that come from outside the database. -/
structure UpgradeEnv where
  checkedAt : Time
  now : Time
  /-- The encrypted content made of the warehouse's answer, or the code the catch block finds
  (`upgrade_delivery_pending` for anything but a `DomainError`). -/
  answer : Except String Nat
  complete : Time

def upgradeLeaseBatch (itemId : Id) (now : Time) : List (Stmt Db) :=
  [update Db.upgradeOrdersT
    (fun s u => u.orderItemId == itemId && u.state == .pending && decide (u.nextAttemptAt ≤ now) &&
      decide (u.attemptCount < 8) && upgradeDeliverable s u.orderItemId)
    (fun _ u => { u with attemptCount := u.attemptCount + 1, nextAttemptAt := now + 60000 })]

def upgradeBatch (row : UpgradeRow) (deliveryId : Id) (content : Nat) (complete : Time) : List (Stmt Db) :=
  [update Db.upgradeOrdersT (fun s u => u.orderItemId == row.orderItemId && u.state == .pending &&
        upgradeDeliverable s u.orderItemId)
      (fun _ u => { u with state := .delivered }),
    update Db.deliveriesT (fun s d => d.id == deliveryId && d.status.queued &&
        s.upgradeOrders.exist fun u => u.orderItemId == d.orderItemId && u.state == .delivered)
      (fun _ d => { d with
        status := .delivered, contentEncrypted := some (.text content), errorCode := none
        nextAttemptAt := none })] ++
    activateEntitlementGrantStatements row.orderItemId complete ++
    [completeOrderStatement row.orderId complete,
      -- the from status is left NULL, which the transition check refuses: never inserted
      insert Db.eventsT .orIgnore fun s =>
        s.fromOrder row.orderId (fun o => o.status == .completed) fun o =>
          { orderId := o.id, eventType := .deliveryProgressed, fromStatus := none
            toStatus := some .completed, orderVersion := some o.version
            id := some (.gptUpgrade row.orderItemId) },
      deliveryReadyStatement deliveryId]

def upgradeTerminalCodes : List String :=
  ["redeem_warehouse_http_409_upgrade.quote_already_paid", "redeem_warehouse_http_409_upgrade.amount_mismatch"]

def upgradeFailureBatch (row : UpgradeRow) (deliveryId : Id) (code : String) (terminal : Bool)
    (next : Time) : List (Stmt Db) :=
  [update Db.upgradeOrdersT (fun _ u => u.orderItemId == row.orderItemId && u.state == .pending) (fun _ u => { u with
        state := if terminal then .needsReview else .pending, nextAttemptAt := next }),
    update Db.deliveriesT (fun _ d => d.id == deliveryId && d.status.queued) (fun _ d => { d with
        status := if terminal then .failed else .processing, errorCode := some (.thrown code)
        attemptCount := d.attemptCount + 1, nextAttemptAt := if terminal then none else some next })]

def recordUpgradeFailure (row : UpgradeRow) (deliveryId : Id) (code : String) (now : Time) :
    Call Site DeliveryReply := do
  let terminal := upgradeTerminalCodes.contains code || decide (8 ≤ row.attemptCount + 1)
  let next := now + min 3600000 (60000 * 2 ^ row.attemptCount)
  let _ ← Prog.commit (.upgradeFailure deliveryId) (upgradeFailureBatch row deliveryId code terminal next)
  if terminal then return { status := .needsReview }
  else Prog.throw ⟨"upgrade_delivery_pending", 503, "Upgrade delivery is pending; do not pay again"⟩

/-- The report of an upgrade state that is not `pending` any more. -/
def UpgradeState.report : UpgradeState → DeliveryReport
  | .pending => .processing
  | .delivered => .delivered
  | .needsReview => .needsReview
  | .cancelled => .cancelled

def deliverUpgrade (row : UpgradeRow) (deliveryId : Id) (e : UpgradeEnv) : Call Site DeliveryReply :=
  Prog.tryCatch (match e.answer with
      | .error code => Prog.throw ⟨code, 503, ""⟩
      | .ok content => do
        let _ ← Prog.commit (.upgradeDelivery deliveryId row.orderItemId row.orderId)
          (upgradeBatch row deliveryId content e.complete)
        let actual ← Prog.query fun s => (s.upgradeOrders.get? row.orderItemId).map (·.state)
        return { status := if actual = some .delivered then .delivered else .waiting })
    fun err => recordUpgradeFailure row deliveryId (failureCode "upgrade_delivery_pending" err) e.now

/-- `processUpgradeDelivery`; `none` where the delivery is no upgrade. -/
def processUpgradeDelivery (deliveryId : Id) (e : UpgradeEnv) : Call Site (Option DeliveryReply) := do
  let row? ← Prog.query fun s => upgradeRow s deliveryId
  match row? with
  | none => return none
  | some row =>
    if row.orderStatus = .refunded ∨ row.refundExists = true ∨
        ¬(row.orderStatus = .paid ∨ row.orderStatus = .fulfilling ∨ row.orderStatus = .completed) ∨
        row.paidMinor = 0 then
      return some { status := .waiting }
    else if row.state ≠ .pending then return some { status := row.state.report }
    else if e.checkedAt < row.nextAttemptAt then return some { status := .processing }
    else if 8 ≤ row.attemptCount then
      let reply ← recordUpgradeFailure row deliveryId "upgrade_delivery_exhausted" e.now
      return some reply
    else
      let lease ← Prog.commit (.upgradeLease row.orderItemId) (upgradeLeaseBatch row.orderItemId e.now)
      if lease.headD 0 = 0 then return some { status := .processing }
      else
        let reply ← deliverUpgrade row deliveryId e
        return some reply

/-! ## Agent access -/

structure AgentRow where
  orderItemId : Id
  state : AgentAccessState
  attemptCount : Nat
  nextAttemptAt : Time
  orderId : Id
  orderStatus : ShopOrderStatus
  refundPending : Bool

def agentRow (s : Db) (deliveryId : Id) : Option AgentRow := do
  let d ← s.deliveries.get? deliveryId
  let a ← s.agentOrders.get? d.orderItemId
  let i ← s.items.get? d.orderItemId
  let o ← s.orders.get? i.orderId
  some
    { orderItemId := a.orderItemId, state := a.state, attemptCount := a.attemptCount
      nextAttemptAt := a.nextAttemptAt, orderId := o.id, orderStatus := o.status
      refundPending := s.refunds.exist fun r => r.orderId == o.id &&
        (r.status == .pending || r.status == .processing) }

/-- What the remote service answered to `provision`. -/
structure AgentAnswer where
  active : Bool
  initialPasswordValid : Bool

structure AgentEnv where
  checkedAt : Time
  now : Time
  commerceSecret : Bool
  /-- The generated password, encrypted. -/
  generated : Nat
  decrypts : Bool
  /-- `none` where the remote call throws. -/
  provision : Option AgentAnswer
  complete : Time
  revoked : Bool

/-- An error that is no `DomainError`. -/
def plainError (message : String) : DomainError := ⟨"Error", 500, message⟩

/-- `revoke`: the remote access is taken back, then the row says so. -/
def revokeAgentAccess (row : AgentRow) (e : AgentEnv) : Call Site Unit := do
  if e.revoked then
    let _ ← Prog.commit (.agentRevoke row.orderItemId)
      [update Db.agentOrdersT (fun _ a => a.orderItemId == row.orderItemId)
        (fun _ a => { a with state := .revoked, initialPasswordEncrypted := none })]
  else Prog.throw (plainError "revocation_pending")

def agentBatch (row : AgentRow) (deliveryId : Id) (complete : Time) : List (Stmt Db) :=
  [update Db.agentOrdersT (fun s a => a.orderItemId == row.orderItemId && a.state == .pending &&
        s.orderIs row.orderId (·.status.deliverable) &&
        !(s.refunds.exist fun r => r.orderId == row.orderId && r.status.live))
      (fun _ a => { a with state := .active }),
    update Db.deliveriesT (fun s d => d.id == deliveryId && d.status.queued &&
        (s.agentOrders.exist fun a => a.orderItemId == d.orderItemId && a.state == .active) &&
        s.orderIs row.orderId (·.status.deliverable))
      (fun _ d => { d with status := .delivered })] ++
    activateEntitlementGrantStatements row.orderItemId complete ++
    [completeOrderStatement row.orderId complete, insert Db.eventsT .orIgnore fun s =>
        s.fromOrder row.orderId (fun o => o.status == .completed) fun o =>
          { orderId := o.id, eventType := .deliveryProgressed, fromStatus := some .fulfilling
            toStatus := some .completed, orderVersion := some o.version
            id := some (.agentAccess row.orderItemId) }]

def agentLeaseBatch (itemId : Id) (now : Time) : List (Stmt Db) :=
  [update Db.agentOrdersT
    (fun _ a => a.orderItemId == itemId && a.state == .pending && decide (a.nextAttemptAt ≤ now) &&
      decide (a.attemptCount < 8))
    (fun _ a => { a with attemptCount := a.attemptCount + 1, nextAttemptAt := now + 60000 })]

/-- The password is stored before the remote call, so that a retry uses the same one. -/
def storePassword (itemId : Id) (generated : Nat) : List (Stmt Db) :=
  [update Db.agentOrdersT
    (fun _ a => a.orderItemId == itemId && a.initialPasswordEncrypted.isNone && a.state == .pending)
    (fun _ a => { a with initialPasswordEncrypted := some generated })]

def clearPassword (itemId : Id) (valid : Bool) : Call Site Unit :=
  if valid then pure ()
  else do
    let _ ← Prog.commit (.agentPassword itemId) [update Db.agentOrdersT (fun _ a => a.orderItemId == itemId)
        (fun _ a => { a with initialPasswordEncrypted := none })]

def deliverAgentAccess (row : AgentRow) (deliveryId : Id) (e : AgentEnv) : Call Site DeliveryReply :=
  Prog.tryCatch (if e.commerceSecret then do
      let _ ← Prog.commit (.agentPassword row.orderItemId) (storePassword row.orderItemId e.generated)
      let encrypted ← Prog.query fun s =>
        (s.agentOrders.get? row.orderItemId).bind (·.initialPasswordEncrypted)
      match e.provision with
      | none => Prog.throw (plainError "agent transport")
      | some answer =>
        if encrypted.isNone ∨ e.decrypts = false then Prog.throw (plainError "initial_password_missing")
        else if answer.active = false then Prog.throw (plainError "not_ready")
        else do
          clearPassword row.orderItemId answer.initialPasswordValid
          let _ ← Prog.commit (.agentDelivery deliveryId row.orderItemId row.orderId)
            (agentBatch row deliveryId e.complete)
          let actual ← Prog.query fun s => (s.agentOrders.get? row.orderItemId).map (·.state)
          return { status := if actual = some .active then .delivered else .processing }
    else Prog.throw (plainError "delivery_secret_unavailable"))
    fun _ => do
      let _ ← Prog.commit (.agentFailure row.orderItemId)
        [update Db.agentOrdersT (fun _ a => a.orderItemId == row.orderItemId && a.state == .pending)
          (fun _ a => { a with
            nextAttemptAt := e.now + min 3600000 (60000 * 2 ^ row.attemptCount) })]
      Prog.throw ⟨"agent_access_pending", 503, "Opening is pending; do not pay again"⟩

/-- `processAgentDelivery`; `none` where the delivery is no access order. -/
def processAgentDelivery (deliveryId : Id) (e : AgentEnv) : Call Site (Option DeliveryReply) := do
  let row? ← Prog.query fun s => agentRow s deliveryId
  match row? with
  | none => return none
  | some row =>
    if row.state = .revoked then return some { status := .revoked }
    else if row.state = .cancelled then return some { status := .cancelled }
    else if row.orderStatus = .refunded then
      let _ ← revokeAgentAccess row e
      return some { status := .revoked }
    else if row.refundPending = true ∨
        ¬(row.orderStatus = .paid ∨ row.orderStatus = .fulfilling ∨ row.orderStatus = .completed) then
      return some { status := .waiting }
    else if row.state = .active then return some { status := .delivered }
    else if 8 ≤ row.attemptCount then Prog.throw ⟨"agent_access_support_required", 409,
        "Opening requires support; do not pay again"⟩
    else if e.checkedAt < row.nextAttemptAt then return some { status := .processing }
    else
      let lease ← Prog.commit (.agentLease row.orderItemId) (agentLeaseBatch row.orderItemId e.now)
      if lease.headD 0 = 0 then return some { status := .processing }
      else
        let reply ← deliverAgentAccess row deliveryId e
        return some reply

end Gmshop
