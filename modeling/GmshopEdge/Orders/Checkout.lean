import GmshopEdge.Orders.Lifecycle

/-!
# Checkout

`createMultiStoreOrder` (`storefront/server/multi-order.ts`): what it checks of each line
(`assertPurchaseLimit`, `prepareSale`) and of the coupon (`loadCoupon`), and its batch: the order, its
items, the stock that components with a sale capacity reserve at once, and the use of the coupon.

Prices and the plans' own data are arguments here, as are the random ids, the period of the coupon
and what `assertPromotionOwner` says of its owner. Left out: the idempotency key, the other checks
that can only refuse the cart, and the rows of upgrade and access items.
-/

namespace Gmshop

open Sql Stmt

/-- A priced cart. The schema asks for at least one line and for distinct plans. -/
structure Checkout where
  orderId : Id
  orderNumber : Nat
  userId : Option Id
  email : Option Nat
  identityEmail : Option Nat
  totalMinor : Minor
  currency : Nat
  currencyDecimals : Nat
  expiresAt : Time
  lines : List ShopOrderItem
  /-- The coupon whose code was entered. -/
  couponId : Option Id
  /-- `starts_at` and `ends_at` admit the coupon now. -/
  couponCurrent : Bool
  /-- `assertPromotionOwner`. -/
  promotionOwner : Except DomainError Unit
  redemptionId : Id
  /-- The triggers on the coupon's owner and recipient let the redemption pass. -/
  couponUserValid : Bool
  referralRewardMinor : Minor
  /-- The keys of the setting `integration.supply_console_map`. -/
  saleComponents : List Id
  now : Time
  nonempty : lines ≠ []
  distinct : (lines.map (·.sellableItemId)).Nodup

/-- `access.userId`, else the guest's email. -/
def Checkout.customer (c : Checkout) : Option Customer :=
  (c.userId.map Customer.user).orElse fun _ => c.email.map Customer.guest

def Checkout.couponIdentity (c : Checkout) : Option Nat := c.identityEmail.orElse fun _ => c.email

def Checkout.order (c : Checkout) : ShopOrder :=
  { id := c.orderId, orderNumber := c.orderNumber, status := .pendingPayment, version := 1
    totalMinor := c.totalMinor, currency := c.currency, currencyDecimals := c.currencyDecimals
    userId := c.userId, couponId := c.couponId, expiresAt := c.expiresAt
    updatedAt := c.now, normalizedContactEmail := c.email }

def Checkout.items (c : Checkout) : List ShopOrderItem :=
  c.lines.map fun l => { l with orderId := c.orderId }

/-! ## What a customer has bought and redeemed -/

/-- The orders of a customer: those of the account, or a guest's under the email. -/
def Customer.owns (customer : Customer) (o : ShopOrder) : Bool :=
  match customer with
  | .user id => o.userId == some id
  | .guest email => o.userId.isNone && o.normalizedContactEmail == some email

/-- `status NOT IN ('cancelled', 'expired', 'refunded')`. -/
def ShopOrderStatus.countsAsPurchase (st : ShopOrderStatus) : Bool :=
  st != .cancelled && st != .expired && st != .refunded

/-- The total of `assertPurchaseLimit`. -/
def purchasedQuantity (s : Db) (customer : Customer) (sellableItemId : Id) : Nat :=
  s.items.sum fun i =>
    if i.sellableItemId = sellableItemId ∧
        s.orderIs i.orderId (fun o => customer.owns o && o.status.countsAsPurchase) = true then
      i.quantity
    else 0

def assertPurchaseLimit (customer : Customer) (line : ShopOrderItem) : Call Site Unit := do
  let limit ← Prog.query fun s =>
    (s.sellableItems.get? line.sellableItemId).bind (·.maximumPerCustomer)
  match limit with
  | none => pure ()
  | some limit =>
    let total ← Prog.query fun s => purchasedQuantity s customer line.sellableItemId
    if limit < total + line.quantity then
      Prog.throw ⟨"customer_purchase_limit", 409, "Customer purchase limit reached"⟩
    else pure ()

/-- The redemptions that count as the customer's: the account's, else those under the email. -/
def redeemedBy (userId : Option Id) (email : Nat) (cr : CouponRedemption) : Bool :=
  match userId with
  | some u => cr.userId == some u
  | none => cr.normalizedEmail == email

/-- `status IN ('reserved', 'consumed')`. -/
def RedemptionStatus.inUse (st : RedemptionStatus) : Bool := st == .reserved || st == .consumed

def customerUseCount (s : Db) (couponId : Id) (userId : Option Id) (email : Nat) : Nat :=
  s.redemptions.count fun cr =>
    cr.couponId == couponId && redeemedBy userId email cr && cr.status.inUse

def couponUnavailable : DomainError := ⟨"coupon_unavailable", 409, "Coupon is unavailable"⟩

/-- `loadCoupon`; one read gets the coupon and the customer's uses of it. -/
def loadCoupon (c : Checkout) (couponId : Id) (email : Nat) : Call Site Coupon := do
  let row ← Prog.query fun s => ((s.coupons.get? couponId).filter (·.enabled)).map fun k =>
    (k, customerUseCount s couponId c.userId email)
  match row with
  | none => Prog.throw couponUnavailable
  | some (coupon, uses) =>
    if c.couponCurrent = false ∨ coupon.usageLimit.any (fun l => decide (l ≤ coupon.usedCount)) then
      Prog.throw couponUnavailable
    else if coupon.usageLimitPerCustomer.any fun l => decide (l ≤ uses) then
      Prog.throw ⟨"coupon_customer_limit", 409, "Coupon customer limit reached"⟩
    else liftExcept c.promotionOwner
      return coupon

/-! ## The batch -/

/-- The coupon swap and the order that depends on it, or the order alone. -/
def orderStatements (c : Checkout) (coupon : Option Coupon) : List (Stmt Db) :=
  match coupon with
  | none => [insert Db.ordersT .abort fun _ => [c.order]]
  | some coupon =>
    [update Db.couponsT (fun _ k => k.id == coupon.id && k.enabled && k.usedCount == coupon.usedCount &&
          k.usageLimit.all fun l => decide (k.usedCount < l))
        (fun _ k => { k with usedCount := k.usedCount + 1 }),
      onChanges fun changes => insert Db.ordersT .abort fun s =>
        if changes == 1 && s.coupons.exist fun k => k.id == coupon.id then [c.order] else []]

/-- `owned_code_checkout_stock` and the foreign key of an item's order. -/
def itemGuards (saleComponents : List Id) (item : ShopOrderItem) : List (Stmt Db) :=
  [abortWhen (fun _ s => item.deliveryComponentType == .stock &&
      s.orderIs item.orderId (·.status == .pendingPayment) &&
      (s.sellableItems.exist fun p =>
        p.id == item.deliveryComponentId && p.fulfillmentSource == .local) &&
      saleComponents.contains item.deliveryComponentId &&
      decide ((availableEntries s item.deliveryComponentId).length < item.quantity))
      "owned_code_stock_unavailable",
    abortWhen (fun _ s => !(s.orders.exist fun o => o.id == item.orderId)) "FOREIGN KEY"]

def lineStatements (c : Checkout) (capacity : List Id) (item : ShopOrderItem) : List (Stmt Db) :=
  itemGuards c.saleComponents item ++ [insert Db.itemsT .abort fun _ => [item]] ++
    (if capacity.contains item.deliveryComponentId then
      [reserveSaleStatement item.deliveryComponentId item.id item.quantity]
    else []) ++
    (if item.deliveryComponentType = .download then [insert Db.downloadAssetsT .abort fun s =>
        (s.downloadBindings.rows.filter fun b => b.sellableItemId == item.deliveryComponentId &&
          b.productId == item.productId && b.downloadEnabled).map fun b =>
            { orderItemId := item.id, assetId := b.assetId }]
    else [])

/-- The redemption of the coupon, and what a promotion leaves on the order. -/
def redemptionStatements (c : Checkout) (email : Nat) (coupon : Coupon) : List (Stmt Db) :=
  [abortWhen (fun _ s => coupon.purpose != .standard && !c.couponUserValid ||
      (coupon.purpose == .recall && s.redemptions.exist fun cr => cr.couponId == coupon.id &&
        (cr.status == .reserved || cr.status == .consumed))) "coupon_recipient_or_usage_invalid",
    insert Db.redemptionsT .abort fun _ =>
      [{ id := c.redemptionId, couponId := coupon.id, orderId := c.orderId, userId := c.userId
         normalizedEmail := email, status := .reserved }]] ++
    (if coupon.purpose = .standard then []
    else [update Db.ordersT (fun _ o => o.id == c.orderId) (fun _ o => { o with
        promotionPurpose := some coupon.purpose, referrerUserId := coupon.referrerUserId
        referralRewardMinor := c.referralRewardMinor })])

/-- The whole batch; `coupon` is the row that was read, with the email it is redeemed under. -/
def checkoutBatch (c : Checkout) (capacity : List Id) (coupon : Option (Coupon × Nat)) : List (Stmt Db) :=
  orderStatements c (coupon.map (·.1)) ++ c.items.flatMap (lineStatements c capacity) ++
    [insert Db.eventsT .abort fun _ =>
      [{ orderId := c.orderId, eventType := .orderCreated, fromStatus := none, toStatus := none
         orderVersion := none }]] ++
    ((coupon.map fun k => redemptionStatements c k.2 k.1).getD [])

/-! ## The call -/

/-- `prepareSale`: the component has a sale capacity, and enough codes are there. -/
def prepareSale (saleComponents : List Id) (componentId : Id) (quantity : Nat) : Call Site Bool :=
  if saleComponents.contains componentId = false then pure false
  else do
    let count ← Prog.query fun s => (availableEntries s componentId).length
    if count < quantity then Prog.throw ⟨"inventory_unavailable", 409, "Insufficient owned codes"⟩
    else return true

/-- `prepareSale` of a stock line. -/
def prepareLine (saleComponents : List Id) (line : ShopOrderItem) : Call Site Bool :=
  if line.deliveryComponentType = .stock then prepareSale saleComponents line.deliveryComponentId line.quantity
  else pure false

/-- The lines one after the other; the components that reserve at checkout. -/
def prepareLines (saleComponents : List Id) (customer : Customer) : List ShopOrderItem → Call Site (List Id)
  | [] => pure []
  | line :: rest => do
    assertPurchaseLimit customer line
    let capacity ← prepareLine saleComponents line
    let others ← prepareLines saleComponents customer rest
    return if capacity then line.deliveryComponentId :: others else others

def checkoutCoupon (c : Checkout) : Call Site (Option (Coupon × Nat)) :=
  match c.couponId with
  | none => pure none
  | some couponId => match c.couponIdentity with
    | none => Prog.throw ⟨"contact_email_required", 400, "An account email is required to use this coupon"⟩
    | some email => do
      let coupon ← loadCoupon c couponId email
      return some (coupon, email)

def checkoutError (c : Checkout) : Failure DomainError → Failure DomainError
  | .aborted (.raise "owned_code_stock_unavailable") =>
    .thrown ⟨"inventory_unavailable", 409, "Insufficient owned codes"⟩
  | .aborted a => if c.couponId.isSome then .thrown couponUnavailable else .aborted a
  | err => err

def Checkout.ref (c : Checkout) (customer : Customer) (coupon : Option (Coupon × Nat)) : CheckoutRef :=
  { orderId := c.orderId, customer := customer
    lines := c.lines.map fun l => (l.sellableItemId, l.quantity)
    couponId := coupon.map (·.1.id), couponUsedCount := (coupon.map (·.1.usedCount)).getD 0
    couponEmail := (coupon.map (·.2)).getD 0 }

def createMultiStoreOrder (c : Checkout) : Call Site ShopOrder :=
  match c.customer with
  | none => Prog.throw ⟨"contact_email_required", 400, "Enter an email address to place a guest order"⟩
  | some customer => do
    let capacity ← prepareLines c.saleComponents customer c.items
    let coupon ← checkoutCoupon c
    Prog.tryCatch (do
      let _ ← Prog.commit (.createMultiStoreOrder (c.ref customer coupon)) (checkoutBatch c capacity coupon)
      return c.order)
      fun err => Prog.fail (checkoutError c err)

end Gmshop
