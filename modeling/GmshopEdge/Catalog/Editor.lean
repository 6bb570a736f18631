import GmshopEdge.Catalog.Products

/-!
# The product editor

`saveProductContentFn`, `saveProductSellableItemsFn`, `publishProductFn`, `setProductSaleDisabled` and
`setSellableItemSaleDisabled` (`catalog/server/editor.ts`). The editor loads a product with its revision; a call
makes its checks, claims that revision (`claimRevision`) and writes its batch.

What `checkProduct` finds in the tables of supplier bindings, downloads and automation methods is an argument.
Carts, the inventory events, the media and the audit rows' actors are left out.
-/

namespace Gmshop

open List Sql Stmt Prog

/-! ## Loading and claiming -/

/-- `getProductEditorFn`: the product's row, and what it is like. -/
def loadProduct (productId : Id) : CatalogProg (Option CatalogProduct × ProductView) :=
  .act (some .load) (Option CatalogProduct × ProductView)
    (fun s => ((s.products.get? productId, view s productId), noteLoaded (fun p => p.id == productId) s)) .done

def productNotFound : DomainError := ⟨"product_not_found", 404, "Product not found"⟩

def claimRevision (productId expected : Nat) : CatalogProg Nat := do
  let changes ← commit (.claim productId expected)
    [update Catalog.productsT (fun _ p => p.id == productId && p.revision == expected)
      fun _ p => { p with revision := p.revision + 1 }]
  if changes ≠ [1] then
    throw ⟨"product_revision_conflict", 409, "This product changed in another tab. Reload before saving."⟩
  else .done (expected + 1)

def audit (action : String) (targetId : Id) : Stmt Catalog := fun c s =>
  .ok (c, { s with audits := s.audits ++ [{ action := action, targetId := targetId }] })

def noteChange (productId : Id) : Stmt Catalog :=
  update Catalog.productsT (fun _ p => p.id == productId) fun _ p => { p with changes := p.changes + 1 }

def setProduct (productId : Id) (f : CatalogProduct → CatalogProduct) : Stmt Catalog :=
  update Catalog.productsT (fun _ p => p.id == productId) fun _ p => f p

/-! ## Content -/

structure ProductContent where
  productType : ProductKind
  name : String
  description : Option String
  tagNames : List String
  coverObjectKey : Option String

def productTypeMismatch : DomainError :=
  ⟨"product_type_configuration_mismatch", 409, "Remove existing sellable items before changing product type"⟩

/-- Whether the product's type may become this one: it is, or there are no items. -/
def assertProductTypeChange (productId : Id) (productType : ProductKind) : CatalogProg Unit := do
  let current ← query fun s => (s.products.get? productId).map (·.productType)
  if current = some productType then .done ()
  else do
    let configured ← query fun s => s.items.exist fun i => i.productId == productId
    if configured then throw productTypeMismatch else .done ()

def ProductContent.written (data : ProductContent) (p : CatalogProduct) : CatalogProduct :=
  { p with name := data.name, description := data.description, tagNames := data.tagNames
           productType := data.productType, coverObjectKey := data.coverObjectKey, status := .draft }

def contentStatements (productId : Id) (data : ProductContent) : List (Stmt Catalog) :=
  [setProduct productId data.written, audit "product.content_updated" productId, noteChange productId]

def saveProductContent (productId expectedRevision : Nat) (loaded : ProductView) (data : ProductContent) :
    CatalogProg Nat := do
  let known ← query fun s => data.coverObjectKey.all fun key => s.media.contains (productId, key)
  if !known then throw ⟨"product_cover_invalid", 400, "Select a cover uploaded for this product"⟩
  else do
    assertProductTypeChange productId data.productType
    let revision ← claimRevision productId expectedRevision
    let _ ← commit (.write productId revision loaded) (contentStatements productId data)
    .done revision

/-! ## Sellable items -/

structure ItemInput where
  id : Option Id
  name : String
  listPriceMinor : Option Nat
  priceMinor : Nat
  costMinor : Option Nat
  currency : String
  currencyDecimals : Nat
  minimumQuantity : Nat
  maximumQuantity : Nat
  maximumPerCustomer : Option Nat
  deliveryType : ProductKind
  delivery : ItemDelivery
  enabled : Bool
  saleDisabled : Bool
  /-- `undefined` keeps the item's own -/
  reminderCycleDays : Option (Option Nat)

def ItemDelivery.unlimited (d : ItemDelivery) : Bool := d.durationMs.isNone && d.usageLimit.isNone && d.accessLimit.isNone

def inferRenewalMode (d : ItemDelivery) : RenewalMode := if d.unlimited then .disabled else .stack

def inferEmailMode (type : ProductKind) (d : ItemDelivery) : EmailMode :=
  if type = .stock ∧ d.unlimited then .content else .link

def ItemInput.storedDelivery (item : ItemInput) : ItemDelivery :=
  { item.delivery with
    renewalMode := inferRenewalMode item.delivery
    emailMode := if item.delivery.emailMode = .none then .none else inferEmailMode item.deliveryType item.delivery }

def componentChanged (row : CatalogItem) (d : ItemDelivery) : Bool :=
  { row.delivery with lowStockThreshold := 0 } != { d with lowStockThreshold := 0 }

/-- The row that a submitted item becomes, given the row that it replaces. -/
def writtenItem (productId id index : Nat) (current : Option CatalogItem) (item : ItemInput) : CatalogItem where
  id := id
  productId := productId
  name := item.name
  delivery := item.storedDelivery
  version := ((current.map (·.version)).getD 0) +
    if current.any fun row => !componentChanged row item.storedDelivery then 0 else 1
  currency := item.currency
  currencyDecimals := item.currencyDecimals
  listPriceMinor := item.listPriceMinor
  priceMinor := item.priceMinor
  costMinor := item.costMinor
  minimumQuantity := item.minimumQuantity
  maximumQuantity := item.maximumQuantity
  maximumPerCustomer := item.maximumPerCustomer
  sortOrder := (index + 1) * 100
  enabled := item.enabled
  saleDisabled := item.saleDisabled
  reminderCycleDays := item.reminderCycleDays.getD (current.bind (·.reminderCycleDays))

/-- The submitted items as rows; `fresh` gives a new item its id. -/
def writtenItems (productId : Id) (existing : List CatalogItem) (fresh : Nat → Id) (items : List ItemInput) :
    List CatalogItem :=
  items.mapIdx fun index item =>
    let id := item.id.getD (fresh index)
    writtenItem productId id index (existing.find? fun row => row.id == id) item

/-- `INSERT … ON CONFLICT(id) DO UPDATE`: an item that is there keeps its product and its source. -/
def upsertItem (row : CatalogItem) : Stmt Catalog := fun c s =>
  match s.items.get? row.id with
  | some _ => update Catalog.itemsT (fun _ i => i.id == row.id)
      (fun _ i => { row with productId := i.productId, fulfillmentSource := i.fulfillmentSource }) c s
  | none => insert Catalog.itemsT .abort (fun _ => [row]) c s

def CatalogItem.over (row i : CatalogItem) : CatalogItem :=
  if i.id = row.id then { row with productId := i.productId, fulfillmentSource := i.fulfillmentSource } else i

theorem over_id (row i : CatalogItem) : (row.over i).id = i.id := by
  unfold CatalogItem.over
  split
  · next hid => exact hid.symm
  · rfl

theorem upsertItem_ok {row : CatalogItem} {s t : Catalog} {c n : Nat} (h : upsertItem row c s = .ok (n, t)) :
    ∃ table, t = { s with items := table } ∧
      (((s.items.get? row.id).isSome ∧ table.rows = s.items.rows.map row.over) ∨
        (s.items.get? row.id = none ∧ table.rows = s.items.rows ++ [row])) := by
  unfold upsertItem at h
  split at h
  · next i hi =>
    obtain ⟨-, table, hrows, rfl⟩ := update_ok h
    refine ⟨table, rfl, Or.inl ⟨by rw [hi]; rfl, hrows.trans (map_congr_left fun j _ => ?_)⟩⟩
    exact if_congr beq_iff_eq rfl rfl
  · next hnone =>
    obtain ⟨-, table, hrows, rfl⟩ := insert_abort_ok h
    exact ⟨table, rfl, Or.inr ⟨hnone, hrows⟩⟩

def noteRemoved (id : Id) : Stmt Catalog := fun c s =>
  .ok (c, if s.referenced.contains id then s else { s with removed := id :: s.removed })

/-- `DELETE` of an item that no order or entitlement refers to, with its prices and its listing. -/
def deleteItem (id : Id) : List (Stmt Catalog) :=
  let gone : Catalog → Bool := fun s => !s.referenced.contains id
  [delete Catalog.channelPricesT fun s r => r.sellableItemId == id && gone s,
   delete Catalog.listingsT fun s r => r.sellableItemId == id && gone s,
   noteRemoved id,
   delete Catalog.itemsT fun s i => i.id == id && gone s]

theorem deleteItem_ok {id : Id} {s t : Catalog} {c : Nat} {ns : List Nat}
    (h : batch (deleteItem id) c s = .ok (ns, t)) :
    (id ∈ s.referenced ∧ t = s) ∨ (id ∉ s.referenced ∧ ∃ channels listings items,
        channels.rows = s.channelPrices.rows.filter (fun r => r.sellableItemId != id) ∧
        listings.rows = s.listings.rows.filter (fun r => r.sellableItemId != id) ∧
        items.rows = s.items.rows.filter (fun i => i.id != id) ∧
        t = { s with channelPrices := channels, listings := listings, removed := id :: s.removed, items := items }) := by
  obtain ⟨n1, s1, ms1, h1, h, -⟩ := batch_cons_ok h
  obtain ⟨n2, s2, ms2, h2, h, -⟩ := batch_cons_ok h
  obtain ⟨n3, s3, ms3, h3, h, -⟩ := batch_cons_ok h
  obtain ⟨n4, h4, -⟩ := batch_single_ok h
  obtain ⟨-, channels, hchannels, rfl⟩ := delete_ok h1
  obtain ⟨-, listings, hlistings, rfl⟩ := delete_ok h2
  have hlistings : listings.rows = s.listings.rows.filter
    fun r => !(r.sellableItemId == id && !s.referenced.contains id) := hlistings
  have hnoted := (Prod.mk.inj (Except.ok.inj h3)).2.symm
  by_cases href : id ∈ s.referenced
  · have hkept : s.referenced.contains id = true := contains_iff_mem.mpr href
    obtain rfl := hnoted.trans (if_pos hkept)
    obtain ⟨-, items, hitems, rfl⟩ := delete_ok h4
    have hitems : items.rows = s.items.rows.filter fun i => !(i.id == id && !s.referenced.contains id) := hitems
    simp only [hkept, Bool.not_true, Bool.and_false, Bool.not_false, filter_true] at hchannels hlistings hitems
    rw [Table.ext_rows hchannels, Table.ext_rows hlistings, Table.ext_rows hitems]
    exact Or.inl ⟨href, rfl⟩
  · have hgone : s.referenced.contains id = false := by
      rw [← Bool.not_eq_true, contains_iff_mem]
      exact href
    obtain rfl := hnoted.trans (if_neg (Bool.eq_false_iff.mp hgone))
    obtain ⟨-, items, hitems, rfl⟩ := delete_ok h4
    have hitems : items.rows = s.items.rows.filter fun i => !(i.id == id && !s.referenced.contains id) := hitems
    simp only [hgone, Bool.not_false, Bool.and_true] at hchannels hlistings hitems
    exact Or.inr ⟨href, channels, listings, items, hchannels, hlistings, hitems, rfl⟩

def disableItem (id : Id) : Stmt Catalog :=
  update Catalog.itemsT (fun _ i => i.id == id) fun _ i => { i with enabled := false }

def sellableItemsStatements (productId : Id) (written : List CatalogItem) (removed : List Id) : List (Stmt Catalog) :=
  setProduct productId (fun p => { p with status := .draft }) :: written.map upsertItem ++
    removed.flatMap (fun id => deleteItem id ++ [disableItem id]) ++
    [audit "product.sellable_items_updated" productId, noteChange productId]

def managedExternally (message : String) : DomainError :=
  ⟨"supplier_sellable_item_managed_externally", 409, message⟩

/-- Supplier items stay, with their cost, currency and inventory settings. -/
def assertSupplierSellableItemChanges (supplierItems : List CatalogItem) (items : List ItemInput) :
    Except DomainError Unit :=
  supplierItems.forM fun existing =>
    match items.find? fun item => item.id == some existing.id with
    | none => .error (managedExternally "Unbind supplier sellable items from supplier management")
    | some submitted =>
      if submitted.currency ≠ existing.currency ∨ submitted.currencyDecimals ≠ existing.currencyDecimals ∨
          submitted.costMinor ≠ existing.costMinor ∨
          submitted.delivery.lowStockThreshold ≠ existing.delivery.lowStockThreshold then
        .error (managedExternally "Supplier cost, currency, and inventory settings are read-only")
      else .ok ()

def orThrow (r : Except DomainError Unit) : CatalogProg Unit :=
  match r with
  | .ok _ => .done ()
  | .error e => throw e

def saveProductSellableItems (productId expectedRevision : Nat) (loaded : ProductView) (fresh : Nat → Id)
    (items : List ItemInput) : CatalogProg Nat := do
  let foreign ← query fun s => items.any fun item => item.id.any fun id =>
    (s.items.get? id).any fun i => i.productId != productId
  if foreign then
    throw ⟨"product_sellable_item_not_owned", 409, "A sellable item belongs to another product"⟩
  else do
    let productType ← query fun s => (s.products.get? productId).map (·.productType)
    match productType with
    | none => throw productNotFound
    | some productType =>
      if items.any fun item => item.deliveryType != productType then
        throw ⟨"sellable_item_delivery_type_mismatch", 409, "Every sellable item must use the product delivery type"⟩
      else do
        let supplierItems ← query fun s => (itemsOf s productId).filter fun i => i.fulfillmentSource == .supplier
        orThrow (assertSupplierSellableItemChanges supplierItems items)
        let revision ← claimRevision productId expectedRevision
        let existing ← query fun s => itemsOf s productId
        let written := writtenItems productId existing fresh items
        let removed := (existing.map (·.id)).filter fun id => !(written.map (·.id)).contains id
        let _ ← commit (.saveItems productId revision loaded written)
          (sellableItemsStatements productId written removed)
        .done revision

/-! ## Publishing -/

def enabledItems (s : Catalog) (productId : Id) : List CatalogItem := (itemsOf s productId).filter (·.enabled)

/-- The messages of the blockers of `checkProduct`; those that other tables give for an item are an argument. -/
def checkProduct (blockersOf : CatalogItem → List String) (name : Option String) (items : List CatalogItem) :
    List String :=
  (if name.all fun name => name.trimAscii.isEmpty then ["A product name is required"] else []) ++
    (if items = [] then ["At least one enabled sellable item is required"] else []) ++ items.flatMap blockersOf

def publishStatements (productId : Id) (publish : Bool) : List (Stmt Catalog) :=
  [setProduct productId fun p => { p with status := if publish then .active else .draft },
   audit (if publish then "product.published" else "product.unpublished") productId, noteChange productId]

def publishProduct (productId expectedRevision : Nat) (loaded : ProductView)
    (blockersOf : CatalogItem → List String) (publish : Bool) : CatalogProg Nat := do
  let status ← query fun s => (s.products.get? productId).map (·.status)
  match status with
  | none => throw productNotFound
  | some status =>
    if status = .trashed then
      throw ⟨"product_trashed", 409, "Restore the product before changing its selling status"⟩
    else do
      let checked ← query fun s => enabledItems s productId
      let name ← query fun s => (s.products.get? productId).map (·.name)
      let blockers := checkProduct blockersOf name checked
      if publish && blockers ≠ [] then
        throw ⟨"product_publish_blocked", 409, "; ".intercalate blockers⟩
      else do
        let revision ← claimRevision productId expectedRevision
        let _ ← commit (.publish productId revision loaded checked) (publishStatements productId publish)
        .done revision

/-! ## Sale switches -/

def productNotActive : DomainError :=
  ⟨"product_not_active", 409, "Only an active product can change its sale-disabled state"⟩

def setProductSaleDisabled (productId expectedRevision : Nat) (loaded : ProductView) (disabled : Bool) :
    CatalogProg Nat := do
  let status ← query fun s => (s.products.get? productId).map (·.status)
  match status with
  | none => throw productNotFound
  | some status =>
    if status ≠ .active then throw productNotActive
    else do
      let revision ← claimRevision productId expectedRevision
      let _ ← commit (.write productId revision loaded)
        [setProduct productId fun p => { p with saleDisabled := disabled },
         audit (if disabled then "product.sale_disabled" else "product.sale_enabled") productId, noteChange productId]
      .done revision

def setSellableItemSaleDisabled (productId expectedRevision : Nat) (loaded : ProductView) (sellableItemId : Id)
    (disabled : Bool) : CatalogProg Nat := do
  let status ← query fun s => ((s.items.get? sellableItemId).filter fun i => i.productId == productId).bind
    fun _ => (s.products.get? productId).map (·.status)
  match status with
  | none => throw ⟨"sellable_item_not_found", 404, "Sellable item not found"⟩
  | some status =>
    if status ≠ .active then throw productNotActive
    else do
      let revision ← claimRevision productId expectedRevision
      let _ ← commit (.write productId revision loaded)
        [update Catalog.itemsT (fun _ i => i.id == sellableItemId) fun _ i => { i with saleDisabled := disabled },
         audit (if disabled then "product.sellable_item_sale_disabled" else "product.sellable_item_sale_enabled")
          sellableItemId, noteChange productId]
      .done revision

/-! ## Edits -/

inductive ProductEdit where
  | content (data : ProductContent)
  | items (fresh : Nat → Id) (inputs : List ItemInput)
  | publish (blockersOf : CatalogItem → List String) (on : Bool)
  | saleDisabled (disabled : Bool)
  | itemSaleDisabled (sellableItemId : Id) (disabled : Bool)

def ProductEdit.handler (productId expectedRevision : Nat) (loaded : ProductView) : ProductEdit → CatalogProg Nat
  | .content data => saveProductContent productId expectedRevision loaded data
  | .items fresh inputs => saveProductSellableItems productId expectedRevision loaded fresh inputs
  | .publish blockersOf on => publishProduct productId expectedRevision loaded blockersOf on
  | .saleDisabled off => setProductSaleDisabled productId expectedRevision loaded off
  | .itemSaleDisabled id disabled => setSellableItemSaleDisabled productId expectedRevision loaded id disabled

/-- A product is loaded, edited and saved under the revision that was loaded. -/
def editProduct (productId : Id) (edit : CatalogProduct → ProductEdit) : CatalogProg Unit := do
  let (product, loaded) ← loadProduct productId
  match product with
  | none => throw productNotFound
  | some product => ((edit product).handler productId product.revision loaded).void

end Gmshop
