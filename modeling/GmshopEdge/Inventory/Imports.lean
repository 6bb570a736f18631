import GmshopEdge.Db.Schema
import GmshopEdge.Secrets.Keyring

/-!
# Inventory imports

Three ways lead codes into `stock_entries`: `importRestockBatch` (`catalog/server/restock-api.ts`),
`generateRedeemSellableInventory` (`redeem-warehouse/server/admin.ts`) and the cards of a supplier order
(`suppliers/server/process.ts`). An entry is unique in its item by a fingerprint, an HMAC whose key is the text
of the setting `runtime.data_encryption_secret`: the whole keyring, which `rotateRuntimeSecretFn`
(`settings/server/admin.ts`) replaces.

* The HMAC is an argument.
* An entry keeps its code as it was imported; the encrypted content, the mask, the note and the cost are left out.
* SHA-256 digests of a request are the request itself; random ids are arguments.
-/

namespace Gmshop

open Sql Stmt Prog Utf16

/-! ## Texts -/

def isWhitespace (u : UInt16) : Bool :=
  (0x0009 ≤ u && u ≤ 0x000D) || u == 0x0020 || u == 0x00A0 || u == 0x1680 || (0x2000 ≤ u && u ≤ 0x200A) ||
    u == 0x2028 || u == 0x2029 || u == 0x202F || u == 0x205F || u == 0x3000 || u == 0xFEFF

/-- `String.prototype.trim`. -/
def trim (s : Utf16) : Utf16 := (s.dropWhile isWhitespace).rdropWhile isWhitespace

/-- `[...new Set(lines.map(trim).filter(Boolean))]`. -/
def distinctTrimmed (lines : List Utf16) : List Utf16 := ((lines.map trim).filter (· ≠ [])).eraseDups

/-- The lines of a text; a carriage return in front of a line feed goes with the white space. -/
def normalizeInventorySecrets (content : Utf16) : List Utf16 := distinctTrimmed (content.splitOn (unit '\n'))

def lowerUnit (u : UInt16) : UInt16 := if 0x41 ≤ u && u ≤ 0x5A then u + 0x20 else u

/-- `sku.toLowerCase().replaceAll("_", "-")` and a hyphen, for a SKU of basic Latin letters. -/
def skuPrefix (sku : Utf16) : Utf16 :=
  (sku.map fun u => if u = unit '_' then unit '-' else lowerUnit u) ++ [unit '-']

/-! ## Tables -/

/-- A random id, or the one that a card of a supplier order has by its place. -/
inductive StockId where
  | uuid (id : Id)
  | card (supplierOrderId : Id) (index : Nat)
  deriving DecidableEq

/-- `stock_entries`, with fingerprints in `D`. -/
structure InventoryEntry (D : Type) where
  id : StockId
  sellableItemId : Id
  code : Utf16
  contentFingerprint : D
  status : StockStatus
  procurementRequestRef : Option Utf16 := none
  redeemSku : Option Utf16 := none
  supplierOrderId : Option Id := none
  deriving DecidableEq

instance {D : Type} [DecidableEq D] : Row (InventoryEntry D) where
  clash a b := a.id == b.id || (a.sellableItemId == b.sellableItemId && a.contentFingerprint == b.contentFingerprint)

inductive ImportNamespace where
  | restockApi
  | redeemSellableGeneration
  deriving DecidableEq

inductive ImportPayload where
  | restock (componentId : Id) (secrets : List Utf16) (usageUrl source : Utf16)
  | generation (sku : Utf16) (componentId : Id) (count : Nat)
  deriving DecidableEq

/-- `replay_receipts` of the two namespaces. -/
structure ImportReceipt where
  kind : ImportNamespace
  scopeId : Id
  externalId : Utf16
  payloadDigest : ImportPayload

instance : Row ImportReceipt where
  clash a b := a.kind == b.kind && a.scopeId == b.scopeId && a.externalId == b.externalId

/-- A sellable item, with what the imports read of its product and its supplier bindings. -/
structure InventoryItem where
  id : Id
  enabled : Bool := true
  fulfillmentSource : FulfillmentSource := .local
  supplierBound : Bool := false
  productIsStock : Bool := true
  productActive : Bool := true

instance : KeyedRow InventoryItem where
  clash a b := a.id == b.id
  key := InventoryItem.id
  clash_of_key a b h := by simp [h]

/-- `supplier_orders`, with the item that its order item names. -/
structure CardOrder where
  id : Id
  sellableItemId : Id
  quantity : Nat
  selectedAccountId : Option Id := none
  state : SupplierOrderState := .pending
  upstreamOrderId : Option Utf16 := none
  suppliedAt : Option Time := none
  lastErrorCode : Option String := none

instance : KeyedRow CardOrder where
  clash a b := a.id == b.id
  key := CardOrder.id
  clash_of_key a b h := by simp [h]

structure Inventory (D : Type) [DecidableEq D] where
  items : Table InventoryItem
  entries : Table (InventoryEntry D)
  receipts : Table ImportReceipt
  orders : Table CardOrder
  dataEncryptionSecret : Option Utf16

section Tables

variable {D : Type} [DecidableEq D]

def Inventory.entriesT : TableRef (Inventory D) (InventoryEntry D) :=
  ⟨Inventory.entries, fun s t => { s with entries := t }, fun _ _ => rfl⟩

def Inventory.receiptsT : TableRef (Inventory D) ImportReceipt :=
  ⟨Inventory.receipts, fun s t => { s with receipts := t }, fun _ _ => rfl⟩

def Inventory.ordersT : TableRef (Inventory D) CardOrder :=
  ⟨Inventory.orders, fun s t => { s with orders := t }, fun _ _ => rfl⟩

/-- `runtimeConfig.commerceSecret`; a missing setting is the empty text. -/
def Inventory.commerceSecret (s : Inventory D) : Utf16 := s.dataEncryptionSecret.getD []

end Tables

inductive InventoryError where
  | domain (e : DomainError)
  | secret (e : SecretError)

/-- Where a call writes; an import with the secret that its fingerprints are made with. -/
inductive InventorySite where
  | importEntries (secret : Utf16)
  | rotate
  | supplierOrder

abbrev InventoryProg (D : Type) [DecidableEq D] := Prog (Inventory D) InventorySite InventoryError

section Calls

variable {D : Type} [DecidableEq D]

def refuse {α : Type} (code : String) (status : Nat) (message : String) : InventoryProg D α :=
  throw (.domain ⟨code, status, message⟩)

def fingerprintInventorySecret (hmac : Utf16 → Utf16 → D) (value fingerprintPepper : Utf16) : D :=
  hmac (ascii "gmshop-card-fingerprint:" ++ fingerprintPepper) value

def requireKeyring (secret : Utf16) : InventoryProg D Unit :=
  match parseKeyring secret with
  | .ok _ => .done ()
  | .error e => throw (.secret e)

def findReceipt (s : Inventory D) (kind : ImportNamespace) (scopeId : Id) (externalId : Utf16) :
    Option ImportReceipt :=
  s.receipts.rows.find? fun r => r.kind == kind && r.scopeId == scopeId && r.externalId == externalId

def insertReceipt (r : ImportReceipt) : Stmt (Inventory D) := insert Inventory.receiptsT .abort fun _ => [r]

/-- `INSERT OR IGNORE` of one entry. -/
def insertEntry (e : InventoryEntry D) : Stmt (Inventory D) := insert Inventory.entriesT .orIgnore fun _ => [e]

/-! ## Restocking -/

/-- The request, as its schema leaves it: secrets and texts are trimmed. -/
structure RestockRequest where
  requestRef : Utf16
  componentId : Id
  secrets : List Utf16
  usageUrl : Utf16 := []
  source : Utf16

def loadComponent (s : Inventory D) (componentId : Id) : Option InventoryItem :=
  (s.items.get? componentId).filter fun item => item.productIsStock && item.enabled &&
    (item.fulfillmentSource == .local || item.supplierBound)

def importedCount (s : Inventory D) (componentId : Id) (requestRef : Utf16) (fingerprints : List D) : Nat :=
  s.entries.count fun e => e.sellableItemId == componentId && e.procurementRequestRef == some requestRef &&
    fingerprints.contains e.contentFingerprint

def restockEntries (hmac : Utf16 → Utf16 → D) (commerceSecret : Utf16) (ids : Nat → Id) (data : RestockRequest)
    (normalized : List Utf16) : List (InventoryEntry D) :=
  normalized.mapIdx fun index code =>
    { id := .uuid (ids index)
      sellableItemId := data.componentId
      code := code
      contentFingerprint := fingerprintInventorySecret hmac code commerceSecret
      status := .available
      procurementRequestRef := some data.requestRef }

/-- The number of imported entries; `none` for a repeated request. -/
def importRestockBatch (hmac : Utf16 → Utf16 → D) (ids : Nat → Id) (data : RestockRequest) :
    InventoryProg D (Option Nat) :=
  let normalized := normalizeInventorySecrets ([unit '\n'].intercalate data.secrets)
  let payload := ImportPayload.restock data.componentId normalized data.usageUrl data.source
  if normalized.length ≠ data.secrets.length then
    refuse "restock_duplicate_input" 400 "Duplicate inventory entries are not accepted"
  else do
    let component ← query fun s => loadComponent s data.componentId
    match component with
    | none => refuse "stock_component_not_found" 404 "Stock delivery component not found"
    | some component => do
      let commerceSecret ← query Inventory.commerceSecret
      if commerceSecret = [] then
        refuse "inventory_secret_unavailable" 503 "Inventory encryption secret is unavailable"
      else do
        let existing ← query fun s => findReceipt s .restockApi data.componentId data.requestRef
        match existing with
        | some receipt =>
          if receipt.payloadDigest ≠ payload then
            refuse "restock_request_conflict" 409 "Request reference already belongs to another payload"
          else .done none
        | none =>
          if component.supplierBound && data.usageUrl == [] then
            refuse "inventory_usage_url_required" 400
              "A recharge URL is required for supplier-backed CDK inventory"
          else do
            requireKeyring commerceSecret
            let prepared := restockEntries hmac commerceSecret ids data normalized
            let duplicate ← query fun s => s.entries.exist fun e => e.sellableItemId == data.componentId &&
              (prepared.map (·.contentFingerprint)).contains e.contentFingerprint
            if duplicate then
              refuse "restock_duplicate_inventory" 409 "Inventory entry already exists"
            else do
              let _ ← commit (.importEntries commerceSecret)
                (insertReceipt ⟨.restockApi, data.componentId, data.requestRef, payload⟩ :: prepared.map insertEntry)
              let imported ← query fun s => importedCount s data.componentId data.requestRef
                (prepared.map (·.contentFingerprint))
              .done (some imported)

/-! ## Generated codes -/

structure GenerateRequest where
  requestRef : Utf16
  sku : Utf16
  componentId : Id
  count : Nat

structure IssuedBatch where
  sku : Utf16
  count : Nat
  codes : List Utf16

def redeemSkus : List Utf16 := [ascii "GPT_PLUS_PH", ascii "GPT_5X_PH", ascii "GPT_20X_PH"]

def generatedEntries (hmac : Utf16 → Utf16 → D) (commerceSecret : Utf16) (ids : Nat → Id) (data : GenerateRequest)
    (codes : List Utf16) : List (InventoryEntry D) :=
  codes.mapIdx fun index code =>
    { id := .uuid (ids index)
      sellableItemId := data.componentId
      code := code
      contentFingerprint := fingerprintInventorySecret hmac code commerceSecret
      status := .available
      redeemSku := if redeemSkus.contains data.sku then some data.sku else none }

/-- The answer is for the request: its SKU, as many codes as asked for, all different and of that SKU. -/
def IssuedBatch.fits (batch : IssuedBatch) (data : GenerateRequest) : Bool :=
  batch.sku == data.sku && batch.count == data.count && batch.codes.length == data.count &&
    batch.codes.eraseDups.length == data.count && batch.codes.all fun code => (skuPrefix data.sku).isPrefixOf code

def generateRedeemSellableInventory (hmac : Utf16 → Utf16 → D) (ids : Nat → Id) (commerceSecret : Utf16)
    (data : GenerateRequest) (batch : IssuedBatch) : InventoryProg D (Option Nat) :=
  let payload := ImportPayload.generation data.sku data.componentId data.count
  if commerceSecret = [] then
    refuse "redeem_warehouse_unavailable" 503 "Warehouse configuration unavailable"
  else do
    let component ← query fun s => (s.items.get? data.componentId).filter fun item =>
      item.enabled && item.fulfillmentSource == .local && item.productActive && item.productIsStock
    match component with
    | none => refuse "redeem_sellable_component_not_found" 404 "Stock item not found"
    | some _ => do
      let existing ← query fun s => findReceipt s .redeemSellableGeneration data.componentId data.requestRef
      match existing with
      | some receipt =>
        if receipt.payloadDigest ≠ payload then
          refuse "redeem_sellable_request_conflict" 409 "Request reference already used"
        else .done none
      | none =>
        if !batch.fits data then
          refuse "redeem_warehouse_batch_mismatch" 502
            "Redemption batch does not match the requested SKU and count"
        else do
          requireKeyring commerceSecret
          let prepared := generatedEntries hmac commerceSecret ids data batch.codes
          let _ ← commit (.importEntries commerceSecret)
            (insertReceipt ⟨.redeemSellableGeneration, data.componentId, data.requestRef, payload⟩ ::
              prepared.map insertEntry)
          let imported ← query fun s => s.entries.count fun e => (prepared.map (·.id)).contains e.id
          .done (some imported)

/-! ## Supplier cards -/

structure SuppliedCards where
  upstreamOrderId : Option Utf16
  cards : List Utf16

def cardEntries (hmac : Utf16 → Utf16 → D) (commerceSecret : Utf16) (order : CardOrder) (cards : List Utf16) :
    List (InventoryEntry D) :=
  cards.mapIdx fun index card =>
    { id := .card order.id index
      sellableItemId := order.sellableItemId
      code := card
      contentFingerprint := fingerprintInventorySecret hmac card commerceSecret
      status := .reserved
      supplierOrderId := some order.id }

def suppliedNow (s : Inventory D) (orderId : Id) (now : Time) : Bool :=
  s.orders.exist fun o => o.id == orderId && o.state == .supplied && o.suppliedAt == some now

/-- `INSERT … WHERE suppliedNow ON CONFLICT(id) DO NOTHING`: a clash of fingerprints aborts. -/
def insertCard (orderId : Id) (now : Time) (e : InventoryEntry D) : Stmt (Inventory D) :=
  insert Inventory.entriesT .abort fun s =>
    if suppliedNow s orderId now && !s.entries.exist (fun x => x.id == e.id) then [e] else []

def markSupplied (orderId : Id) (upstreamOrderId : Option Utf16) (now : Time) : Stmt (Inventory D) :=
  update Inventory.ordersT (fun _ o => o.id == orderId && (o.state == .submitting || o.state == .uncertain))
    fun _ o => { o with state := .supplied, upstreamOrderId := upstreamOrderId, suppliedAt := some now,
                        lastErrorCode := none }

def markUncertain (orderId : Id) (code : String) (upstreamOrderId : Option Utf16) : InventoryProg D (List Nat) :=
  commit .supplierOrder [update Inventory.ordersT (fun _ o => o.id == orderId && o.selectedAccountId.isSome &&
      (o.state == .submitting || o.state == .uncertain))
    fun _ o => { o with state := .uncertain, upstreamOrderId := upstreamOrderId <|> o.upstreamOrderId,
                        lastErrorCode := some code }]

def fulfillSupplierOrder (hmac : Utf16 → Utf16 → D) (order : CardOrder) (result : SuppliedCards)
    (commerceSecret : Utf16) (now : Time) : InventoryProg D (SupplierOrderState × Bool) :=
  let cards := distinctTrimmed result.cards
  if cards.length ≠ order.quantity then
    refuse "supplier_delivery_quantity_mismatch" 502 "Supplier delivery quantity mismatch"
  else do
    requireKeyring commerceSecret
    let results ← commit (.importEntries commerceSecret) (markSupplied order.id result.upstreamOrderId now ::
      (cardEntries hmac commerceSecret order cards).map (insertCard order.id now))
    if results.head? = some 1 then .done (.supplied, false)
    else do
      let current ← query fun s => s.orders.get? order.id
      if current.any (·.state == .refunded) then do
        let _ ← commit .supplierOrder [update Inventory.ordersT (fun _ o => o.id == order.id && o.state == .refunded)
          fun _ o => { o with upstreamOrderId := result.upstreamOrderId <|> o.upstreamOrderId,
                              lastErrorCode := some "supplier_supplied_after_refund" }]
        .done (.refunded, true)
      else .done (.supplied, true)

def storingErrorCode : Failure InventoryError → String
  | .thrown (.domain e) => e.code
  | _ => "supplier_response_processing_failed"

/-- `applyPurchaseResult` for an order that the supplier has delivered. -/
def applySupplied (hmac : Utf16 → Utf16 → D) (order : CardOrder) (result : SuppliedCards)
    (commerceSecret : Utf16) (now : Time) : InventoryProg D (SupplierOrderState × Bool) := do
  let _ ← markUncertain order.id "supplier_delivery_validation_pending" result.upstreamOrderId
  Prog.tryCatch (fulfillSupplierOrder hmac order result commerceSecret now) fun err => do
    let _ ← markUncertain order.id (storingErrorCode err) result.upstreamOrderId
    .fail err

/-- `processSupplierOrder` up to an answer with cards; a new order goes to the account `accountId`. -/
def processSupplierOrder (hmac : Utf16 → Utf16 → D) (orderId accountId : Id) (result : SuppliedCards) (now : Time) :
    InventoryProg D (SupplierOrderState × Bool) := do
  let order ← query fun s => s.orders.get? orderId
  match order with
  | none => refuse "supplier_order_not_found" 404 "Supplier order not found"
  | some order =>
    if order.state = .supplied then .done (.supplied, true)
    else if order.state = .failed ∨ order.state = .refunded then
      refuse "supplier_order_terminal" 409 "Supplier order cannot be processed"
    else do
      let commerceSecret ← query Inventory.commerceSecret
      if commerceSecret = [] then refuse "supplier_configuration_unavailable" 503 "Supplier configuration unavailable"
      else if order.selectedAccountId.isSome then applySupplied hmac order result commerceSecret now
      else do
        let _ ← commit .supplierOrder [update Inventory.ordersT
          (fun _ o => o.id == order.id && o.state == .pending && o.selectedAccountId == none)
          fun _ o => { o with state := .selecting }]
        let claimed ← commit .supplierOrder [update Inventory.ordersT
          (fun _ o => o.id == order.id && o.selectedAccountId == none &&
            (o.state == .pending || o.state == .selecting))
          fun _ o => { o with selectedAccountId := some accountId, state := .submitting, lastErrorCode := none }]
        if claimed ≠ [1] then refuse "supplier_order_claim_conflict" 409 "Supplier order was claimed concurrently"
        else do
          let claimedOrder := { order with selectedAccountId := some accountId, state := .submitting }
          applySupplied hmac claimedOrder result commerceSecret now

def completeSupplierOrderFromCallback (hmac : Utf16 → Utf16 → D) (orderId : Id) (result : SuppliedCards)
    (now : Time) : InventoryProg D (SupplierOrderState × Bool) := do
  let order ← query fun s => s.orders.get? orderId
  match order with
  | none => refuse "supplier_order_not_found" 404 "Supplier order not found"
  | some order =>
    if order.state = .supplied then .done (.supplied, true)
    else if order.state ≠ .submitting ∧ order.state ≠ .uncertain then
      refuse "supplier_order_callback_state_invalid" 409 "Supplier order cannot accept this callback"
    else do
      let commerceSecret ← query Inventory.commerceSecret
      if commerceSecret = [] then refuse "supplier_configuration_unavailable" 503 "Supplier configuration unavailable"
      else fulfillSupplierOrder hmac order result commerceSecret now

/-! ## The key -/

def writeSecret (value : Utf16) : Stmt (Inventory D) := fun _ s =>
  .ok (1, { s with dataEncryptionSecret := some value })

/-- `rotateRuntimeSecretFn`; the setting takes at most 8192 characters. -/
def rotateRuntimeSecret (bytes : Vector UInt8 32) : InventoryProg D Unit := do
  let row ← query Inventory.dataEncryptionSecret
  match row with
  | none => refuse "runtime_secret_unavailable" 409 "The runtime secret is not initialized"
  | some current =>
    match rotateSecretKeyring current bytes with
    | .error e => throw (.secret e)
    | .ok rotated =>
      if 8192 < rotated.length then throw (.secret .platform)
      else (commit .rotate [writeSecret rotated]).void

/-- The entry that `reconcileDeliveredOrder` takes for a code of an item: by the fingerprint under the secret
that it reads. -/
def reconcileStockEntry (hmac : Utf16 → Utf16 → D) (s : Inventory D) (componentId : Id) (secret : Utf16) :
    Option (InventoryEntry D) :=
  s.entries.rows.find? fun e => e.sellableItemId == componentId &&
    e.contentFingerprint == fingerprintInventorySecret hmac secret s.commerceSecret && e.status == .available

/-! ## Calls -/

inductive InventoryCall where
  | restock (ids : Nat → Id) (data : RestockRequest)
  | generate (ids : Nat → Id) (commerceSecret : Utf16) (data : GenerateRequest) (batch : IssuedBatch)
  | process (orderId accountId : Id) (result : SuppliedCards) (now : Time)
  | callback (orderId : Id) (result : SuppliedCards) (now : Time)
  | rotate (bytes : Vector UInt8 32)

def InventoryCall.code (hmac : Utf16 → Utf16 → D) : InventoryCall → InventoryProg D Unit
  | .restock ids data => (importRestockBatch hmac ids data).void
  | .generate ids commerceSecret data batch => (generateRedeemSellableInventory hmac ids commerceSecret data batch).void
  | .process orderId accountId result now => (processSupplierOrder hmac orderId accountId result now).void
  | .callback orderId result now => (completeSupplierOrderFromCallback hmac orderId result now).void
  | .rotate bytes => rotateRuntimeSecret bytes

end Calls

end Gmshop
