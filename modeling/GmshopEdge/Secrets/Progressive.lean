import Mathlib
import GmshopEdge.Lib.Interleave
import GmshopEdge.Lib.Like
import GmshopEdge.Secrets.Rotation

/-!
# Progressive re-encryption

`progressivelyReencryptSecrets` (`server/scheduled/secret-rotation.ts`) takes a bounded page of each column
that holds secrets, re-encrypts it under the current key and writes the page back, one batch a column.

A column is a table of the rows' keys and values here. The initialisation vectors are arguments of a call.
-/

namespace Gmshop

open Sql Stmt Prog Utf16

/-! ## Tables -/

inductive SecretColumn where
  /-- `stock_entries.content_encrypted` -/
  | stockEntries
  /-- `product_sellable_items.automation_credential_encrypted` -/
  | productSellableItems
  /-- `automation_jobs.callback_secret_encrypted` -/
  | automationJobs
  /-- `entitlement_authorization_values.value_encrypted` -/
  | entitlementAuthorizationValues
  /-- `delivery_records.content_encrypted` -/
  | deliveryRecords
  /-- `payment_channels.credential_encrypted` -/
  | paymentChannels
  /-- `supplier_accounts.credentials_encrypted` -/
  | supplierAccounts
  /-- `notification_channel_configs.api_key_encrypted` -/
  | notificationChannelConfigs
  /-- `notification_subscriptions.destination_encrypted` -/
  | notificationSubscriptions
  /-- `notification_deliveries.message_encrypted` -/
  | notificationDeliveries
  deriving DecidableEq

inductive SecretField where
  | column (column : SecretColumn)
  /-- `shop_order_items.sensitive_input_values_json` -/
  | orderInputs
  /-- `automation_jobs.sensitive_inputs_json` -/
  | jobInputs
  /-- `system_settings.value` -/
  | settings
  deriving DecidableEq

structure SecretRow where
  /-- `id`, or `key` of a setting. -/
  key : String
  value : Option Utf16
  /-- `is_secret` of a setting. -/
  isSecret : Bool
  /-- `order_item_id` of a delivery record, `sellable_item_id` of an order item. -/
  link : Option String
  /-- What an operation of the shop wrote last; no statement reads it. -/
  written : Option Utf16
  deriving DecidableEq

instance : Row SecretRow where
  clash a b := a.key == b.key

structure SaleCapacity where
  componentId : String
  freeBudget : Nat
  generation : Nat
  updatedAt : Nat

instance : Row SaleCapacity where
  clash a b := a.componentId == b.componentId

structure SecretStore where
  rows : SecretField → Table SecretRow
  /-- `redeem_sale_capacity` -/
  capacity : Table SaleCapacity

def SecretStore.rowsT (field : SecretField) : TableRef SecretStore SecretRow :=
  ⟨fun s => s.rows field, fun s t => { s with rows := Function.update s.rows field t },
    fun _ _ => Function.update_self ..⟩

def SecretStore.capacityT : TableRef SecretStore SaleCapacity :=
  ⟨SecretStore.capacity, fun s t => { s with capacity := t }, fun _ _ => rfl⟩

def SecretStore.find (s : SecretStore) (field : SecretField) (key : String) : Option SecretRow :=
  (s.rows field).rows.find? (·.key == key)

/-- Where a call writes: the rows a rotation has read, with their new values. -/
inductive SecretSite where
  | rotate (field : SecretField) (updates : List (SecretRow × Utf16))
  | operation

abbrev SecretProg := Prog SecretStore SecretSite SecretError

/-! ## Statements -/

/-- The component whose capacity a new content of the delivery record resets
(`redeem_sale_delivery_changed`). -/
def SecretStore.changedComponent (s : SecretStore) (field : SecretField) (key : String) (p : SecretRow → Bool)
    (value : Option Utf16) : Option String :=
  if field = .column .deliveryRecords then do
    let record ← (s.find field key).filter p
    if value = none ∨ value = record.value then none
    let item ← s.find .orderInputs (← record.link)
    item.link
  else none

def SaleCapacity.reset (x : SaleCapacity) : SaleCapacity :=
  { x with freeBudget := 0, updatedAt := 0, generation := x.generation + 1 }

/-- `UPDATE T SET column = ? WHERE id = ? AND …`, with the trigger of the delivery records. -/
def setSecret (field : SecretField) (key : String) (p : SecretRow → Bool) (value : Option Utf16)
    (f : SecretRow → SecretRow) : Stmt SecretStore := fun c s => do
  let (n, t) ← update (SecretStore.rowsT field) (fun _ r => r.key == key && p r) (fun _ r => f r) c s
  let (_, t) ← update SecretStore.capacityT
    (fun _ x => s.changedComponent field key p value == some x.componentId) (fun _ x => x.reset) n t
  return (n, t)

def rotateSecret (field : SecretField) (key : String) (next : Utf16) : Stmt SecretStore :=
  setSecret field key (fun _ => true) (some next) fun r => { r with value := some next }

/-! ## The secrets of a value -/

structure SecretEntry where
  properties : Record Utf16 Json.Value
  envelope : Utf16

def secretEntry (value : Json.Value) : Option SecretEntry := do
  let properties ← value.properties
  let envelope ← (← properties.get (ascii "envelope")).str?
  let _ ← (← properties.get (ascii "keyVersion")).num?
  some ⟨properties, envelope⟩

def parseSecretMap (value : Utf16) : Record Utf16 SecretEntry :=
  match Json.parse value with
  | some (.obj members) => (Record.ofEntries members).filterMap secretEntry
  | _ => .empty

def printSecretMap (entries : List (Utf16 × SecretEntry)) : Utf16 :=
  Json.print (.obj (entries.map fun e => (e.1, .obj e.2.properties.entries)))

/-- `JSON.parse`, where it gives a string. -/
def parseSecretText (value : Utf16) : Option Utf16 := (Json.parse value).bind Json.Value.str?

/-- The envelopes of a value with their names; a column and a setting hold one. -/
def secretsIn (field : SecretField) (value : Utf16) : List (Utf16 × Utf16) :=
  match field with
  | .column _ => [([], value)]
  | .orderInputs => (parseSecretMap value).entries.map fun e => (e.1, e.2.envelope)
  | .jobInputs => (parseSecretMap value).entries.map fun e => (e.1, e.2.envelope)
  | .settings => ((parseSecretText value).map (([] : Utf16), ·)).toList

/-! ## Values -/

section Rotation

variable (c : WebCrypto) (keyring : Utf16) (ivs : SecretField → String → Utf16 → Vector UInt8 12)

def rewriteEnvelope (purpose : Utf16) (iv : Vector UInt8 12) (row : SecretRow) : Except SecretError (Option Utf16) :=
  match row.value with
  | none => .ok none
  | some value => reencryptSecret c value keyring purpose iv

def rewriteEntry (purpose : Utf16) (iv : Vector UInt8 12) (entry : SecretEntry) :
    Except SecretError (Option SecretEntry) := do
  let next ← reencryptSecret c entry.envelope keyring purpose iv
  return next.map fun envelope => ⟨(entry.properties.set (ascii "envelope") (.str envelope)).set
    (ascii "keyVersion") (.num ⟨false, 1, 0⟩), envelope⟩

def rewriteEntries (purpose : Utf16) (iv : Utf16 → Vector UInt8 12) :
    List (Utf16 × SecretEntry) → Except SecretError (List (Utf16 × SecretEntry) × Bool)
  | [] => .ok ([], false)
  | (name, entry) :: entries => do
    let next ← rewriteEntry c keyring purpose (iv name) entry
    let (rest, changed) ← rewriteEntries purpose iv entries
    return ((name, next.getD entry) :: rest, next.isSome || changed)

def rewriteSecretMap (purpose : Utf16) (iv : Utf16 → Vector UInt8 12) (row : SecretRow) :
    Except SecretError (Option Utf16) :=
  match row.value with
  | none => .ok none
  | some value => do
    let (entries, changed) ← rewriteEntries c keyring purpose iv (parseSecretMap value).entries
    return if changed then some (printSecretMap entries) else none

def rewriteSetting (purpose : Utf16) (iv : Vector UInt8 12) (row : SecretRow) : Except SecretError (Option Utf16) :=
  match row.value.bind parseSecretText with
  | none => .ok none
  | some envelope => do
    let next ← reencryptSecret c envelope keyring purpose iv
    return next.map fun envelope => Json.print (.str envelope)

def rewriteValue (field : SecretField) (purpose : Utf16) (row : SecretRow) : Except SecretError (Option Utf16) :=
  match field with
  | .column column => rewriteEnvelope c keyring purpose (ivs (.column column) row.key []) row
  | .orderInputs => rewriteSecretMap c keyring purpose (ivs .orderInputs row.key) row
  | .jobInputs => rewriteSecretMap c keyring purpose (ivs .jobInputs row.key) row
  | .settings => rewriteSetting c keyring purpose (ivs .settings row.key []) row

/-! ## A page -/

structure RotationStage where
  field : SecretField
  /-- WHERE -/
  selects : SecretRow → Bool
  limit : Nat
  /-- The purpose for the row under a key; `none` leaves the row. -/
  purpose : String → Option Utf16

/-- `SELECT … ORDER BY id LIMIT ?` -/
def RotationStage.page (st : RotationStage) (s : SecretStore) : List SecretRow :=
  (((s.rows st.field).rows.filter st.selects).insertionSort fun a b => a.key ≤ b.key).take st.limit

def RotationStage.rewrite (st : RotationStage) (row : SecretRow) : Except SecretError (Option Utf16) :=
  match st.purpose row.key with
  | none => .ok none
  | some purpose => rewriteValue c keyring ivs st.field purpose row

/-- The rows of a page with their new values, in order; the first failure ends the loop. -/
def rewriteRows (rewrite : SecretRow → Except SecretError (Option Utf16)) :
    List SecretRow → Except SecretError (List (SecretRow × Utf16))
  | [] => .ok []
  | row :: rows => do
    let next ← rewrite row
    let rest ← rewriteRows rewrite rows
    return (next.map (row, ·)).toList ++ rest

def RotationStage.write (field : SecretField) : List (SecretRow × Utf16) → SecretProg Nat
  | [] => .done 0
  | updates => do
    let ns ← commit (.rotate field updates) (updates.map fun u => rotateSecret field u.1.key u.2)
    .done ns.sum

def RotationStage.run (st : RotationStage) : SecretProg Nat := do
  let rows ← query st.page
  match rewriteRows (st.rewrite c keyring ivs) rows with
  | .error e => throw e
  | .ok updates => RotationStage.write st.field updates

/-! ## Columns -/

structure SecretSpec where
  column : SecretColumn
  purpose : Utf16

def secretSpecs : List SecretSpec :=
  [⟨.stockEntries, ascii "card-secret"⟩, ⟨.productSellableItems, ascii "build-config"⟩,
    ⟨.automationJobs, ascii "build-callback"⟩, ⟨.entitlementAuthorizationValues, ascii "build-input"⟩,
    ⟨.deliveryRecords, ascii "delivery-content"⟩, ⟨.paymentChannels, ascii "payment-credential"⟩,
    ⟨.supplierAccounts, ascii "supplier-account-credentials"⟩,
    ⟨.notificationChannelConfigs, ascii "notification-config"⟩,
    ⟨.notificationSubscriptions, ascii "notification-destination"⟩,
    ⟨.notificationDeliveries, ascii "notification-message"⟩]

def codePoints : Utf16 → List Nat
  | [] => []
  | [u] => [u.toNat]
  | u :: v :: rest =>
    if Json.isHighSurrogate u && Json.isLowSurrogate v then
      (0x10000 + (u.toNat - 0xD800) * 0x400 + (v.toNat - 0xDC00)) :: codePoints rest
    else u.toNat :: codePoints (v :: rest)

def foldCase (n : Nat) : Nat := if 0x41 ≤ n ∧ n ≤ 0x5A then n + 0x20 else n

def likeText (pattern value : List Nat) : Bool :=
  like foldCase (Wild.pattern '%'.toNat '_'.toNat pattern) value

/-- `v1.${current}.` -/
def envelopePrefix (current : Utf16) : Utf16 := envelopeVersion ++ unit '.' :: current ++ [unit '.']

/-- `column LIKE 'v1.<current>.%'` -/
def likeCurrent (current value : Utf16) : Bool :=
  likeText (codePoints (envelopePrefix current) ++ ['%'.toNat]) (codePoints value)

def reencryptColumn (limit : Nat) (current : Utf16) (spec : SecretSpec) : RotationStage where
  field := .column spec.column
  selects r := r.value.any fun value => !likeCurrent current value
  limit := limit
  purpose _ := some spec.purpose

/-! ## Maps and settings -/

def reencryptJsonSecretMap (limit : Nat) (field : SecretField) (purpose : Utf16) : RotationStage where
  field := field
  selects r := r.value.any fun value => value != ascii "\x7b\x7d"
  limit := limit
  purpose _ := some purpose

def isProviderIdChar (ch : Char) : Bool := ('a' ≤ ch && ch ≤ 'z') || ch.isDigit || ch == '_' || ch == '-'

/-- `[a-z][a-z0-9_-]{1,63}` -/
def isProviderId : List Char → Bool
  | [] => false
  | ch :: cs => 'a' ≤ ch && ch ≤ 'z' && decide (1 ≤ cs.length) && decide (cs.length ≤ 63) && cs.all isProviderIdChar

def authSecretPrefix : List Char := "auth.provider.".toList

def authSecretSuffix : List Char := ".secret".toList

/-- `/^auth\.provider\.([a-z][a-z0-9_-]{1,63})\.secret$/` -/
def authProviderId (key : String) : Option (List Char) :=
  let rest := key.toList.drop authSecretPrefix.length
  let id := rest.take (rest.length - authSecretSuffix.length)
  if key.toList = authSecretPrefix ++ id ++ authSecretSuffix ∧ isProviderId id then some id else none

def authProviderSecretPurpose (id : List Char) : Utf16 := ascii "auth-provider:" ++ id.map unit

/-- `key LIKE 'auth.provider.%.secret'` -/
def isAuthSecretKey (key : String) : Bool :=
  likeText ("auth.provider.%.secret".toList.map Char.toNat) (key.toList.map Char.toNat)

def reencryptAuthProviderSecrets (limit : Nat) : RotationStage where
  field := .settings
  selects r := isAuthSecretKey r.key && r.isSecret
  limit := limit
  purpose key := (authProviderId key).map authProviderSecretPurpose

def exchangeRateCredentialKey : String := "exchange_rates.sync.credential"

def feishuAppSecretKey : String := "telegram.support.feishu_app_secret"

def feishuAppSecretPurpose : Utf16 := ascii "telegram-support:feishu-app-secret"

def telegramOwnerAlertBotTokenKey : String := "telegram.owner_alerts.bot_token"

def telegramOwnerAlertBotTokenPurpose : Utf16 := ascii "telegram-owner-alerts:bot-token"

def reencryptExchangeRateCredential : RotationStage where
  field := .settings
  selects r := r.key == exchangeRateCredentialKey
  limit := 1
  purpose _ := some (ascii "exchange-rate-provider")

def reencryptSettingSecret (key : String) (purpose : Utf16) : RotationStage where
  field := .settings
  selects r := r.key == key && r.isSecret
  limit := 1
  purpose _ := some purpose

/-! ## The call -/

def settingStages (limit : Nat) : List RotationStage :=
  [reencryptExchangeRateCredential, reencryptAuthProviderSecrets limit,
    reencryptSettingSecret feishuAppSecretKey feishuAppSecretPurpose,
    reencryptSettingSecret telegramOwnerAlertBotTokenKey telegramOwnerAlertBotTokenPurpose,
    reencryptJsonSecretMap limit .orderInputs (ascii "order-input"),
    reencryptJsonSecretMap limit .jobInputs (ascii "build-input")]

def columnStages (limit : Nat) (current : Utf16) : List RotationStage :=
  secretSpecs.map (reencryptColumn limit current)

def runStages : List RotationStage → SecretProg Nat
  | [] => .done 0
  | st :: stages => do
    let n ← st.run c keyring ivs
    let rest ← runStages stages
    .done (n + rest)

def progressivelyReencryptSecrets (limitPerField : Nat) : SecretProg Nat :=
  if keyring = [] then .done 0
  else do
    let rewritten ← runStages c keyring ivs (settingStages limitPerField)
    match parseKeyring keyring with
    | .error e => throw e
    | .ok parsed =>
      let columns ← runStages c keyring ivs (columnStages limitPerField parsed.current)
      .done (rewritten + columns)

end Rotation

end Gmshop
