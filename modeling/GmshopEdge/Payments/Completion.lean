import GmshopEdge.Payments.Events

/-!
# Orders completed without a provider

`completeFreeStoreOrder` for an order that costs nothing or that its balance reserve covers, and
`completeWalletStoreOrder` for one paid from the wallet (`shop-payments/server/service.ts`).
-/

namespace Gmshop

open Sql Stmt

def paidEventStatement (orderId : Id) (version : Nat) (type : OrderEventType) : Stmt Db :=
  insert Db.eventsT .abort fun s => s.fromOrder orderId (paidAt version) fun o =>
    { orderId := o.id, eventType := type, fromStatus := some .pendingPayment
      toStatus := some .paid, orderVersion := some version }

/-- What both completions write after the order's event. None of it asks for the swap but the outbox
row. -/
def settleStatements (orderId : Id) (version : Nat) (fulfillment : List (Stmt Db)) : List (Stmt Db) :=
  fulfillment ++ [consumeRedemptionStatement orderId (· == .reserved), paidOutboxStatement orderId version]

def orderNotFound : DomainError := ⟨"order_not_found", 404, "Order not found"⟩

/-! ## Free orders -/

def freeOrderSwap (orderId : Id) (version : Nat) (now : Time) : Stmt Db :=
  updateOrders (fun s o => orderCas orderId .pendingPayment version o && (o.totalMinor == 0 ||
      s.holds.exist fun h => h.orderId == o.id && h.externalMinor == 0 && h.state == .held))
    (fun _ o => paidOrder (version + 1) now o)

def freeOrderBatch (orderId : Id) (version : Nat) (fulfillment : List (Stmt Db)) (now : Time) : List (Stmt Db) :=
  [freeOrderSwap orderId version now, paidEventStatement orderId (version + 1) .paymentNotRequired] ++
    settleStatements orderId (version + 1) fulfillment

/-- `fullHold`: the balance reserve that covers the whole order. -/
def fullHold (orderId : Id) (balanceUserId : Option Id) : Call Site Bool :=
  match balanceUserId with
  | none => pure false
  | some userId => Prog.query fun s => s.holds.exist fun h => h.orderId == orderId &&
      h.userId == userId && h.externalMinor == 0 && (h.state == .held || h.state == .consumed)

def commitFreeOrder (order : ShopOrder) (items : List OrderItem) (e : PaymentEnv) : Call Site PaymentReply := do
  let fulfillment ← liftExcept (orderFulfillmentStatements order.id items e.ids e.now)
  let results ← Prog.commit (.completeFreeStoreOrder order.id order.version)
    (freeOrderBatch order.id order.version fulfillment e.now)
  if results.headD 0 < 1 then Prog.throw (orderVersionConflict "Order changed; retry completion")
  else return { duplicate := false, status := .order .paid }

def completeFreeStoreOrder (orderId : Id) (balanceUserId : Option Id) (e : PaymentEnv) : Call Site PaymentReply := do
  let order? ← Prog.query fun s => s.orders.get? orderId
  match order? with
  | none => Prog.throw orderNotFound
  | some order =>
    let hold ← fullHold orderId balanceUserId
    if order.totalMinor ≠ 0 ∧ hold = false then Prog.throw ⟨"order_payment_required", 409, "Payment is required"⟩
    else if order.status = .paid ∨ order.status = .completed then
      return { duplicate := true, status := .order order.status }
    else if order.status ≠ .pendingPayment then Prog.throw ⟨"order_not_payable", 409, "Order cannot be completed"⟩
    else
      let items ← Prog.query fun s => orderItemsForFulfillment s order.id
      commitFreeOrder order items e

/-! ## Wallet orders -/

structure WalletOrder where
  order : ShopOrder
  userId : Id
  user : Option User

def walletPaymentOrder (s : Db) (orderId userId : Id) : Option WalletOrder := do
  let o ← s.orders.get? orderId
  if o.userId = some userId then some { order := o, userId := userId, user := s.users.get? userId }
  else none

def walletSwaps (order : ShopOrder) (userId : Id) (balance : Int) (balanceVersion : Nat)
    (now : Time) : List (Stmt Db) :=
  let after := balance - order.totalMinor
  [update Db.usersT (fun s u => u.id == userId && u.enabled && u.balanceVersion == balanceVersion &&
        s.orderIs order.id (fun o => o.status == .pendingPayment && o.version == order.version))
      (fun _ u => { u with balanceMinor := after, balanceVersion := balanceVersion + 1 }),
    onChanges fun changes => insert Db.walletEntriesT .abort fun s =>
      (s.users.rows.filter fun u => u.id == userId && u.balanceVersion == balanceVersion + 1 &&
        u.balanceMinor == after && changes == 1).map fun u =>
          { userId := u.id, direction := .debit, amountMinor := order.totalMinor
            balanceBeforeMinor := balance, balanceAfterMinor := u.balanceMinor
            sourceType := .shopOrder, sourceId := order.id, idempotencyKey := .shopOrder order.id },
    updateOrders (fun s o => orderCas order.id .pendingPayment order.version o &&
        s.walletEntries.exist fun w => w.idempotencyKey == .shopOrder order.id)
      (fun _ o => paidOrder (order.version + 1) now o)]

def walletOrderBatch (order : ShopOrder) (userId : Id) (balance : Int) (balanceVersion : Nat)
    (fulfillment : List (Stmt Db)) (now : Time) : List (Stmt Db) :=
  walletSwaps order userId balance balanceVersion now ++
    [paidEventStatement order.id (order.version + 1) .walletPaymentSucceeded] ++
    settleStatements order.id (order.version + 1) fulfillment

/-- `["paid", "fulfilling", "completed"].includes(status)`. -/
def ShopOrderStatus.settled (st : ShopOrderStatus) : Bool :=
  st == .paid || st == .fulfilling || st == .completed

/-- The batch of a wallet order, from the rows the call has read, and its answer. -/
def commitWalletOrder (order : ShopOrder) (user : User) (items : List OrderItem) (e : PaymentEnv) :
    Call Site PaymentReply := do
  let fulfillment ← liftExcept (orderFulfillmentStatements order.id items e.ids e.now)
  let results ← Prog.commit (.completeWalletStoreOrder order.id order.version)
    (walletOrderBatch order user.id user.balanceMinor user.balanceVersion fulfillment e.now)
  if results.headD 0 < 1 then
    let current ← Prog.query fun s => (s.orders.get? order.id).map (·.status)
    match current with
    | some st =>
      if st.settled then return { duplicate := true, status := .order st }
      else Prog.throw (orderVersionConflict "Order or wallet changed; retry payment")
    | none => Prog.throw (orderVersionConflict "Order or wallet changed; retry payment")
  else return { duplicate := false, status := .order .paid }

/-- `currency` is the setting `commerce.default_currency`. -/
def completeWalletStoreOrder (orderId userId : Id) (currency : Nat) (e : PaymentEnv) : Call Site PaymentReply := do
  let order? ← Prog.query fun s => walletPaymentOrder s orderId userId
  match order? with
  | none => Prog.throw orderNotFound
  | some w =>
    if w.order.status ≠ .pendingPayment then
      if w.order.status.settled then
        return { duplicate := true, status := .order w.order.status }
      else Prog.throw ⟨"order_not_payable", 409, "Order cannot be paid"⟩
    else
      let held ← Prog.query fun s => s.holds.exist fun h => h.orderId == w.order.id
      if held then Prog.throw ⟨"wallet_hold_conflict", 409,
          "Continue the existing split payment or start a new order"⟩
      else if w.order.currency ≠ currency then
        Prog.throw ⟨"wallet_currency_mismatch", 409, "Wallet currency mismatch"⟩
      else match w.user with
        | none => Prog.throw ⟨"wallet_user_not_found", 404, "Wallet user not found"⟩
        | some user =>
          if user.balanceMinor < w.order.totalMinor then
            Prog.throw ⟨"wallet_insufficient_balance", 409, "Insufficient balance"⟩
          else
            let items ← Prog.query fun s => orderItemsForFulfillment s w.order.id
            commitWalletOrder w.order user items e

end Gmshop
