import GmshopEdge.Promotions.Pricing
import GmshopEdge.Refunds.Split

/-!
# Prices of a cart with a coupon

`priceStoreCoupon` (`storefront/server/multi-order.ts`) and what it calls: the eligible lines of the coupon's scope,
`allocateDiscount` of a standard coupon, `pricePromotion` of the others. `previewStoreCoupon` prices the cart of the
checkout page with it, `createMultiStoreOrder` the order.

What the database says of the coupon, of the plans and of their prices is an argument, as are `localeCompare` and the
new ids of order items. Amounts are numbers here, texts in the source.
-/

namespace Gmshop

open Apportion

inductive CouponType where
  | fixed
  | percentage

structure CouponScope where
  productIds : List String
  tagNames : List String

/-- The coupon that `loadCoupon` accepts; `scope` is what `parseCouponScope` makes of its scope. -/
structure StoreCoupon where
  purpose : CouponPurpose
  type : CouponType
  currency : Option String := none
  currencyDecimals : Option Nat := none
  valueMinor : Option Nat := none
  valueBps : Option Nat := none
  minimumOrderMinor : Option Nat := none
  maximumDiscountMinor : Option Nat := none
  scope : Except DomainError CouponScope := .ok ⟨[], []⟩

structure StoreItem where
  sellableItemId : String
  productId : String
  currency : String
  currencyDecimals : Nat
  promotionBudgetMinor : String
  deriving DecidableEq

inductive PriceSource where
  | list
  | volume
  | customer
  deriving DecidableEq

structure PricingLine where
  orderItemId : String
  sellableItem : StoreItem
  unitPriceMinor : Nat
  priceSource : PriceSource
  quantity : Nat
  deriving DecidableEq

def PricingLine.subtotal (l : PricingLine) : Nat := l.unitPriceMinor * l.quantity

abbrev PlacedLine := PricingLine × Nat

def couponScopeInvalid (message : String) : DomainError := ⟨"coupon_scope_invalid", 409, message⟩

/-! ## Eligible lines -/

/-- The product is in the scope; `tagged` says which products have one of the tags. -/
def CouponScope.covers (tagged : List String → String → Bool) (scope : CouponScope) (productId : String) : Bool :=
  scope.productIds.isEmpty && scope.tagNames.isEmpty || scope.productIds.contains productId ||
    !scope.tagNames.isEmpty && tagged scope.tagNames productId

def eligibleLines (tagged : List String → String → Bool) (scope : CouponScope) (lines : List PlacedLine) :
    Except DomainError (List PlacedLine) :=
  let eligible := lines.filter fun l => scope.covers tagged l.1.sellableItem.productId
  if scope.productIds.isEmpty && scope.tagNames.isEmpty then .ok lines
  else if eligible.isEmpty then .error (couponScopeInvalid "Coupon does not apply to this order")
  else .ok eligible

/-! ## Standard coupons -/

def StoreCoupon.total (coupon : StoreCoupon) (eligibleSubtotal : Nat) : Nat :=
  let total := match coupon.type with
    | .fixed => coupon.valueMinor.getD 0
    | .percentage => eligibleSubtotal * coupon.valueBps.getD 0 / 10000
  min ((coupon.maximumDiscountMinor.map (min total)).getD total) eligibleSubtotal

def couponCurrencyInvalid (message : String) : DomainError := ⟨"coupon_currency_invalid", 409, message⟩

def StoreCoupon.sameCurrency (coupon : StoreCoupon) (item : StoreItem) : Bool :=
  coupon.currency.isNone || coupon.currency == some item.currency && coupon.currencyDecimals == some item.currencyDecimals

def StoreCoupon.minimumMet (coupon : StoreCoupon) (orderSubtotal : Nat) : Bool :=
  coupon.minimumOrderMinor.all fun minimum => decide (minimum ≤ orderSubtotal)

def eligibleSubtotal (lines : List PlacedLine) : Nat := (lines.map (·.1.subtotal)).sum

def byPlan (collate : String → String → Ordering) (lines : List PlacedLine) : List PlacedLine :=
  lines.insertionSort fun a b => collate a.1.sellableItem.sellableItemId b.1.sellableItem.sellableItemId ≠ .gt

/-- The shares of the lines in order; the first also gets what the divisions leave. -/
def lineDiscounts (total subtotal : Nat) (ordered : List PlacedLine) : List (Nat × Int) :=
  let floors := ordered.map fun l => (l.2, (floorShare total subtotal l.1.subtotal : Int))
  match floors with
  | [] => []
  | first :: rest => (first.1, first.2 + (total - (floors.map (·.2)).sum)) :: rest

/-- The total discount and the discounts of the places; a division by zero throws. -/
def allocateDiscount (collate : String → String → Ordering) (coupon : Option StoreCoupon) (orderSubtotal : Nat)
    (eligible : List PlacedLine) : Except DomainError (Nat × List (Nat × Int)) :=
  match coupon, eligible with
  | none, _ => .ok (0, [])
  | _, [] => .ok (0, [])
  | some coupon, first :: _ =>
    if !coupon.sameCurrency first.1.sellableItem then .error (couponCurrencyInvalid "Coupon currency does not match")
    else if !coupon.minimumMet orderSubtotal then
      .error ⟨"coupon_minimum_not_met", 409, "Coupon minimum order is not met"⟩
    else if eligibleSubtotal eligible = 0 then .error (rangeError "Division by zero")
    else
      let total := coupon.total (eligibleSubtotal eligible)
      .ok (total, lineDiscounts total (eligibleSubtotal eligible) (byPlan collate eligible))

/-! ## `priceStoreCoupon` -/

structure StoreLine where
  id : String
  discountMinor : Int
  rewardMinor : Nat
  deriving DecidableEq

/-- What the coupon does for the cart, and the discounts that the lines are left with. -/
structure StorePricing where
  purpose : CouponPurpose
  discountMinor : Nat
  rewardMinor : Nat
  lines : List StoreLine
  discounts : List Int
  deriving DecidableEq

def discountAt (discounts : List (Nat × Int)) (place : Nat) : Int :=
  ((discounts.find? fun d => d.1 == place).map (·.2)).getD 0

def couponPurpose : CouponPurpose → Option PromotionPurpose
  | .standard => none
  | .referral => some .referral
  | .recall => some .recall

def couponLines (tagged : List String → String → Bool) (coupon : StoreCoupon) (lines : List PricingLine) :
    Except DomainError (List PlacedLine) := do
  let scope ← coupon.scope
  let eligible ← eligibleLines tagged scope lines.zipIdx
  .ok (eligible.filter fun l => l.1.priceSource == .list)

def promotionItem (l : PricingLine) : PromotionItem :=
  { id := l.orderItemId, budgetMinor := l.sellableItem.promotionBudgetMinor, subtotalMinor := toString l.subtotal
    quantity := l.quantity }

def promotionDiscount (pricing : PromotionPricing) (l : PricingLine) : Int :=
  ((pricing.lines.find? fun p => p.id == l.orderItemId).map fun p => (p.discountMinor : Int)).getD 0

def pricePromotionCoupon (collate : String → String → Ordering) (purpose : PromotionPurpose) (asked : CouponPurpose)
    (lines : List PricingLine) (eligible : List PlacedLine) : Except DomainError StorePricing :=
  if lines.any fun l => l.sellableItem.currency != "CNY" || l.sellableItem.currencyDecimals != 2 then
    .error (couponCurrencyInvalid "Promotions require CNY")
  else do
    let pricing ← pricePromotion collate purpose (eligible.map fun l => promotionItem l.1)
    (if pricing.discountMinor = 0 then .error (couponScopeInvalid "No eligible promotion items")
    else .ok
      { purpose := asked, discountMinor := pricing.discountMinor, rewardMinor := pricing.rewardMinor
        lines := pricing.lines.map fun p => { id := p.id, discountMinor := p.discountMinor, rewardMinor := p.rewardMinor }
        discounts := lines.map (promotionDiscount pricing) })

def priceStandardCoupon (collate : String → String → Ordering) (coupon : Option StoreCoupon)
    (lines : List PricingLine) (eligible : List PlacedLine) : Except DomainError StorePricing := do
  let (total, discounts) ← allocateDiscount collate coupon (lines.map (·.subtotal)).sum eligible
  .ok
    { purpose := .standard, discountMinor := total, rewardMinor := 0
      lines := lines.zipIdx.map fun l =>
        { id := l.1.orderItemId, discountMinor := discountAt discounts l.2, rewardMinor := 0 }
      discounts := lines.zipIdx.map fun l => discountAt discounts l.2 }

def priceStoreCoupon (collate : String → String → Ordering) (tagged : List String → String → Bool)
    (coupon : Option StoreCoupon) (lines : List PricingLine) : Except DomainError StorePricing :=
  match coupon with
  | none => priceStandardCoupon collate none lines lines.zipIdx
  | some coupon => do
    let eligible ← couponLines tagged coupon lines
    if eligible.isEmpty && lines.any fun l => l.priceSource != .list then
      .error ⟨"coupon_not_combinable", 409, "Coupons cannot be combined with volume or customer prices"⟩
    else match couponPurpose coupon.purpose with
      | none => priceStandardCoupon collate (some coupon) lines eligible
      | some purpose => pricePromotionCoupon collate purpose coupon.purpose lines eligible

/-! ## Preview and checkout -/

structure CartItem where
  sellableItemId : String
  quantity : Nat

structure StoreFacts where
  /-- `loadCoupon`. -/
  coupon : Except DomainError StoreCoupon
  /-- `loadSellableItem`. -/
  sellableItem : String → Except DomainError StoreItem
  linePrice : StoreItem → Nat → Nat × PriceSource
  /-- The products with one of the tags. -/
  tagged : List String → String → Bool
  loaded : ∀ id item, sellableItem id = .ok item → item.sellableItemId = id

def storeLine (f : StoreFacts) (item : CartItem) (orderItemId : String) : Except DomainError PricingLine := do
  let sellableItem ← f.sellableItem item.sellableItemId
  let price := f.linePrice sellableItem item.quantity
  .ok
    { orderItemId := orderItemId, sellableItem := sellableItem, unitPriceMinor := price.1, priceSource := price.2
      quantity := item.quantity }

def assertSingleCurrency (lines : List PricingLine) : Except DomainError Unit :=
  if (lines.map fun l => (l.sellableItem.currency, l.sellableItem.currencyDecimals)).dedup.length = 1 then .ok ()
  else .error ⟨"cart_currency_conflict", 409, "Checkout items must use one currency"⟩

def previewStoreCoupon (collate : String → String → Ordering) (f : StoreFacts) (items : List CartItem) :
    Except DomainError StorePricing := do
  let coupon ← f.coupon
  let lines ← items.mapM fun item => storeLine f item item.sellableItemId
  assertSingleCurrency lines
  priceStoreCoupon collate f.tagged (some coupon) lines

structure StoredDiscounts where
  discountMinor : Nat
  items : List (String × Int)

/-- The prices of `createMultiStoreOrder`, whose other checks can only refuse the cart; `fresh` are the new ids of the
order items. -/
def checkoutDiscounts (collate : String → String → Ordering) (f : StoreFacts) (items : List CartItem)
    (fresh : Nat → String) : Except DomainError StoredDiscounts := do
  let lines ← items.zipIdx.mapM fun item => storeLine f item.1 (fresh item.2)
  assertSingleCurrency lines
  let coupon ← f.coupon
  let priced ← priceStoreCoupon collate f.tagged (some coupon) lines
  .ok
    { discountMinor := priced.discountMinor
      items := (lines.zip priced.discounts).map fun l => (l.1.sellableItem.sellableItemId, l.2) }

end Gmshop
