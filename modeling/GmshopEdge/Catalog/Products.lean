import GmshopEdge.Db.Schema

/-!
# Products and their prices

The tables that the product editor (`catalog/server/editor.ts`) and the pricing guard
(`ops-automation/server/pricing-guard.ts`) share: products with their revision, sellable items with their version
and price, the prices of an item in the payment channels, and its listing for agents.

A product also remembers how often a batch has changed it and the last revision that a caller has loaded, and the
catalog the ids of the items that were deleted; no statement reads these.
-/

namespace Gmshop

open Sql Stmt

/-! ## Tables -/

inductive ProductKind where
  | stock
  | download
  | automation
  deriving DecidableEq

inductive ProductStatus where
  | draft
  | active
  | trashed
  deriving DecidableEq

inductive RenewalMode where
  | stack
  | disabled
  deriving DecidableEq

inductive EmailMode where
  | none
  | link
  | content
  deriving DecidableEq

/-- `products`. -/
structure CatalogProduct where
  id : Id
  name : String
  description : Option String := none
  tagNames : List String := []
  productType : ProductKind := .stock
  coverObjectKey : Option String := none
  status : ProductStatus := .draft
  saleDisabled : Bool := false
  revision : Nat := 1
  changes : Nat := 0
  loadedAt : Nat := 0
  deriving DecidableEq

structure ItemDelivery where
  durationMs : Option Nat := none
  usageLimit : Option Nat := none
  accessLimit : Option Nat := none
  renewalMode : RenewalMode := .disabled
  emailMode : EmailMode := .none
  showOnOrderPage : Bool := true
  allowResend : Bool := true
  lowStockThreshold : Nat := 0
  deriving DecidableEq

/-- `product_sellable_items`. -/
structure CatalogItem where
  id : Id
  productId : Id
  name : String
  delivery : ItemDelivery := {}
  version : Nat := 1
  currency : String := "CNY"
  currencyDecimals : Nat := 2
  listPriceMinor : Option Nat := none
  priceMinor : Nat
  costMinor : Option Nat := none
  minimumQuantity : Nat := 1
  maximumQuantity : Nat := 1
  maximumPerCustomer : Option Nat := none
  sortOrder : Nat := 100
  enabled : Bool := true
  saleDisabled : Bool := false
  reminderCycleDays : Option Nat := none
  fulfillmentSource : FulfillmentSource := .local
  deriving DecidableEq

inductive PriceChannel where
  | usdt
  | alipay
  | other
  deriving DecidableEq

/-- `sellable_item_channel_prices`, with the channel's name. -/
structure ChannelPrice where
  id : Id
  sellableItemId : Id
  channel : PriceChannel
  enabled : Bool := true
  priceMinor : Nat

/-- `supplier_export_listings`. -/
structure ExportListing where
  id : Id
  sellableItemId : Id
  enabled : Bool := true
  currency : String := "CNY"
  currencyDecimals : Nat := 2
  priceMinor : Nat

structure AuditPrices where
  priceMinor : Nat
  alipayMinor : Option Nat
  agentMinor : Option Nat
  version : Nat

/-- `audit_logs`. -/
structure CatalogAudit where
  action : String
  targetId : Id
  before : Option AuditPrices := none
  after : Option AuditPrices := none
  /-- `costMinor` and `minNetMinor` of the guard -/
  costs : Option (Nat × Nat) := none

instance : KeyedRow CatalogProduct where
  clash a b := a.id == b.id
  key := CatalogProduct.id
  clash_of_key a b h := by simp [h]

instance : KeyedRow CatalogItem where
  clash a b := a.id == b.id
  key := CatalogItem.id
  clash_of_key a b h := by simp [h]

instance : KeyedRow ChannelPrice where
  clash a b := a.id == b.id || (a.sellableItemId == b.sellableItemId && a.channel == b.channel && a.channel != .other)
  key := ChannelPrice.id
  clash_of_key a b h := by simp [h]

instance : KeyedRow ExportListing where
  clash a b := a.id == b.id || a.sellableItemId == b.sellableItemId
  key := ExportListing.id
  clash_of_key a b h := by simp [h]

structure Catalog where
  products : Table CatalogProduct
  items : Table CatalogItem
  channelPrices : Table ChannelPrice
  listings : Table ExportListing
  audits : List CatalogAudit
  /-- `product_media`: the covers uploaded for a product -/
  media : List (Id × String)
  /-- the items with order items or entitlements -/
  referenced : List Id
  removed : List Id

def Catalog.productsT : TableRef Catalog CatalogProduct :=
  ⟨Catalog.products, fun s t => { s with products := t }, fun _ _ => rfl⟩

def Catalog.itemsT : TableRef Catalog CatalogItem :=
  ⟨Catalog.items, fun s t => { s with items := t }, fun _ _ => rfl⟩

def Catalog.channelPricesT : TableRef Catalog ChannelPrice :=
  ⟨Catalog.channelPrices, fun s t => { s with channelPrices := t }, fun _ _ => rfl⟩

def Catalog.listingsT : TableRef Catalog ExportListing :=
  ⟨Catalog.listings, fun s t => { s with listings := t }, fun _ _ => rfl⟩

/-! ## What a caller sees of a product -/

/-- A product, its revision and the note of its last load aside, with its items. -/
structure ProductView where
  product : Option CatalogProduct
  items : List CatalogItem
  deriving DecidableEq

def itemsOf (s : Catalog) (productId : Id) : List CatalogItem := s.items.rows.filter fun i => i.productId == productId

def view (s : Catalog) (productId : Id) : ProductView where
  product := (s.products.get? productId).map fun p => { p with revision := 0, loadedAt := 0 }
  items := itemsOf s productId

def noteLoaded (p : CatalogProduct → Bool) (s : Catalog) : Catalog :=
  match update Catalog.productsT (fun _ => p) (fun _ r => { r with loadedAt := r.revision }) 0 s with
  | .ok (_, t) => t
  | .error _ => s

/-! ## Price plans -/

/-- A row of `loadItems`: the item, its enabled prices, and what the product was like when it was read. -/
structure ItemRow where
  id : Id
  productId : Id
  priceMinor : Nat
  version : Nat
  usdtPriceId : Option Id
  alipayPriceId : Option Id
  alipayMinor : Option Nat
  agentListingId : Option Id
  agentPriceMinor : Option Nat
  loadedRevision : Nat
  loaded : ProductView
  deriving DecidableEq

structure PricePlan where
  usdtNew : Nat
  alipayNew : Option Nat
  agentOld : Option Nat
  agentNew : Option Nat
  deriving DecidableEq

structure PlanContext where
  costMinor : Nat
  floorMinor : Nat
  supplierMinor : Option Nat := none
  action : String := "pricing_guard.auto_raise"
  deriving DecidableEq

/-! ## Sites -/

/-- Where a call acts on the catalog; a write with what its caller loaded. -/
inductive CatalogSite where
  | load
  | claim (productId expected : Nat)
  | write (productId claimed : Nat) (loaded : ProductView)
  | saveItems (productId claimed : Nat) (loaded : ProductView) (written : List CatalogItem)
  | publish (productId claimed : Nat) (loaded : ProductView) (checked : List CatalogItem)
  | applyPlan (row : ItemRow) (plan : PricePlan) (context : PlanContext)
  deriving DecidableEq

abbrev CatalogProg := Prog Catalog CatalogSite DomainError

end Gmshop
