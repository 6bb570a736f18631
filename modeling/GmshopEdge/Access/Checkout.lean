import GmshopEdge.Orders.System

/-!
# Checkout of an upgrade and of agent access

What `createMultiStoreOrder` adds for the two kinds of items that are bought alone:
`prepareUpgradeCheckout` and `upgradeCheckoutStatements` (`gpt-upgrade/server/checkout.ts`),
`prepareAgentCheckout` and `agentCheckoutStatement` (`agent-access/server/checkout.ts`). The row of
the item holds its `active_key` until a later checkout finds the order closed and unpaid.

The quote, the account, the terms, the price and the answers of the remote service are arguments.
-/

namespace Gmshop

open Sql Stmt Prog

/-! ## The keys that are given up -/

/-- `o.status IN ('expired', 'cancelled') AND o.paid_minor = '0'` of the order of an item. -/
def closedUnpaid (s : Db) (orderItemId : Id) : Bool :=
  s.items.exist fun i => i.id == orderItemId &&
    s.orderIs i.orderId fun o => (o.status == .expired || o.status == .cancelled) && o.paidMinor == 0

/-- The first of `upgradeCheckoutStatements`. -/
def releaseUpgradesStatement : Stmt Db :=
  update Db.upgradeOrdersT (fun s u => u.state == .pending && closedUnpaid s u.orderItemId)
    (fun _ u => { u with activeKey := none, state := .cancelled })

/-- The same of `prepareAgentCheckout`. -/
def releaseAgentsStatement : Stmt Db :=
  update Db.agentOrdersT (fun s a => a.state == .pending && closedUnpaid s a.orderItemId)
    (fun _ a => { a with activeKey := none, state := .cancelled })

/-! ## What is bought -/

/-- A cart of one upgrade or of one access qualification, with what lies outside the database. -/
inductive AccessCart where
  /-- `quote` is what loading the token's quote ends with; it is open. -/
  | upgrade (quote : Except DomainError Nat)
  /-- `buyer`: whether access is sold, the account, the terms and the price; `eligible`: the remote
  checks. -/
  | agent (kind : AgentAccessKind) (buyer eligible : Except DomainError Unit)

inductive PreparedAccess where
  | upgrade (quoteId : Nat)
  | agent (userId : Id) (kind : AgentAccessKind)

/-- `upgradeCheckoutStatements` and `agentCheckoutStatement`. -/
def PreparedAccess.statements (a : PreparedAccess) (orderItemId : Id) : List (Stmt Db) :=
  match a with
  | .upgrade quoteId =>
    [releaseUpgradesStatement, insert Db.upgradeOrdersT .abort fun _ =>
        [{ orderItemId := orderItemId, quoteId := quoteId, activeKey := some quoteId }]]
  | .agent userId kind =>
    [insert Db.agentOrdersT .abort fun _ =>
      [{ orderItemId := orderItemId, userId := userId, kind := kind
         activeKey := some (userId, kind) }]]

def upgradeCheckoutInvalid : DomainError :=
  ⟨"upgrade_checkout_invalid", 400, "Buy one upgrade separately with a quote and without a coupon"⟩
def agentAccessCheckoutInvalid : DomainError :=
  ⟨"agent_access_checkout_invalid", 400, "Buy one access qualification separately without a coupon"⟩

def Checkout.single (c : Checkout) : Bool :=
  c.lines.length == 1 && c.lines.all (fun l => l.quantity == 1) && c.couponId.isNone

/-- `prepareUpgradeCheckout` and `prepareAgentCheckout`. -/
def prepareAccess (c : Checkout) : AccessCart → Call Site PreparedAccess
  | .upgrade quote =>
    if c.single = false ∨ c.lines.any (fun l => l.renewedFromEntitlementId.isSome) = true then
      Prog.throw upgradeCheckoutInvalid
    else do
      let quoteId ← liftExcept quote
      return .upgrade quoteId
  | .agent kind buyer eligible =>
    if c.single = false then Prog.throw agentAccessCheckoutInvalid
    else match c.userId with
      | none => Prog.throw ⟨"authentication_required", 401, "Sign in first"⟩
      | some userId => do
        liftExcept buyer
        let _ ← Prog.commit (.prepareAgentCheckout userId kind) [releaseAgentsStatement]
        let old ← Prog.query fun s => s.agentOrders.exist fun a => a.activeKey == some (userId, kind)
        if old then Prog.throw ⟨"agent_access_existing_order", 409,
            "Continue your existing access order instead of paying again"⟩
        else do
          liftExcept eligible
          return .agent userId kind

/-! ## The call -/

/-- The statements of the line; the row of the upgrade or the access comes right after the item. -/
def accessLineStatements (c : Checkout) (capacity : List Id) (a : PreparedAccess)
    (item : ShopOrderItem) : List (Stmt Db) :=
  (lineStatements c capacity item).take 3 ++ a.statements item.id ++ (lineStatements c capacity item).drop 3

def accessCheckoutBatch (c : Checkout) (capacity : List Id) (a : PreparedAccess) : List (Stmt Db) :=
  orderStatements c none ++ c.items.flatMap (accessLineStatements c capacity a) ++ [insert Db.eventsT .abort fun _ =>
      [{ orderId := c.orderId, eventType := .orderCreated, fromStatus := none, toStatus := none
         orderVersion := none }]]

/-- Why the batch did not commit; with random ids the only constraint in the way is the active key. -/
def accessCheckoutError : PreparedAccess → Failure DomainError → Failure DomainError
  | _, .aborted (.raise "owned_code_stock_unavailable") =>
    .thrown ⟨"inventory_unavailable", 409, "Insufficient owned codes"⟩
  | .upgrade _, .aborted .constraint =>
    .thrown ⟨"upgrade_existing_order", 409, "Continue your existing upgrade order instead of paying again"⟩
  | _, err => err

/-- `createMultiStoreOrder` of such a cart. -/
def createAccessOrder (c : Checkout) (cart : AccessCart) : Call Site ShopOrder :=
  match c.customer with
  | none => Prog.throw ⟨"contact_email_required", 400, "Enter an email address to place a guest order"⟩
  | some customer => do
    let access ← prepareAccess c cart
    let capacity ← prepareLines c.saleComponents customer c.items
    Prog.tryCatch (do
      let _ ← Prog.commit (.createMultiStoreOrder (c.ref customer none)) (accessCheckoutBatch c capacity access)
      return c.order)
      fun err => Prog.fail (accessCheckoutError access err)

end Gmshop
