import GmshopEdge.Catalog.Editor
import GmshopEdge.Lib.Sites

/-!
# The pricing guard

`applyPlan` of `ops-automation/server/pricing-guard.ts` and its three callers: the pass over all items and the
groups of equal prices (`runPricingGuard`), and the owner's approval of a raise (`approvePricingRaise`).

Which plan a row gets (`followPlan`, `planPrice`, `equalizeGroup`, from costs and settings) is an argument; so is
the item of the upgrade product, which the guard leaves alone.
-/

namespace Gmshop

open List Sql Stmt Prog Attests

/-! ## Loading -/

def channelPrice (s : Catalog) (itemId : Id) (channel : PriceChannel) : Option ChannelPrice :=
  s.channelPrices.rows.find? fun r => r.sellableItemId == itemId && r.enabled && r.channel == channel

def agentListing (s : Catalog) (itemId : Id) : Option ExportListing :=
  s.listings.rows.find? fun r => r.sellableItemId == itemId && r.enabled && r.currency == "CNY" &&
    r.currencyDecimals == 2

def guarded (s : Catalog) (upgradeItem : Id) (onlyItemId : Option Id) (item : CatalogItem) : Bool :=
  item.enabled && !item.saleDisabled && item.id != upgradeItem && onlyItemId.all (· == item.id) &&
    ((s.products.get? item.productId).any fun p => p.status == .active && !p.saleDisabled) &&
    item.currency == "CNY" && item.currencyDecimals == 2

def itemRow (s : Catalog) (item : CatalogItem) : ItemRow where
  id := item.id
  productId := item.productId
  priceMinor := item.priceMinor
  version := item.version
  usdtPriceId := (channelPrice s item.id .usdt).map (·.id)
  alipayPriceId := (channelPrice s item.id .alipay).map (·.id)
  alipayMinor := (channelPrice s item.id .alipay).map (·.priceMinor)
  agentListingId := (agentListing s item.id).map (·.id)
  agentPriceMinor := (agentListing s item.id).map (·.priceMinor)
  loadedRevision := ((s.products.get? item.productId).map (·.revision)).getD 0
  loaded := view s item.productId

def guardRows (s : Catalog) (upgradeItem : Id) (onlyItemId : Option Id) : List ItemRow :=
  (s.items.rows.filter (guarded s upgradeItem onlyItemId)).map (itemRow s)

def loadItems (upgradeItem : Id) (onlyItemId : Option Id) : CatalogProg (List ItemRow) :=
  .act (some .load) (List ItemRow) (fun s =>
      let rows := guardRows s upgradeItem onlyItemId
      (rows, noteLoaded (fun p => rows.any fun row => row.productId == p.id) s)) .done

/-! ## Applying a plan -/

def planHits (s : Catalog) (row : ItemRow) : Bool :=
  (s.items.get? row.id).any fun i => i.version == row.version && i.priceMinor == row.priceMinor

/-- `landed`: the item has the next version and the plan's price. -/
def planLanded (s : Catalog) (row : ItemRow) (plan : PricePlan) : Bool :=
  s.items.exist fun i => i.id == row.id && i.version == row.version + 1 && i.priceMinor == plan.usdtNew

def setItemPrice (row : ItemRow) (plan : PricePlan) (context : PlanContext) : Stmt Catalog :=
  update Catalog.itemsT (fun _ i => i.id == row.id && (i.version == row.version && i.priceMinor == row.priceMinor))
    fun _ i => { i with priceMinor := plan.usdtNew, version := i.version + 1
                        costMinor := context.supplierMinor <|> i.costMinor }

def setChannelPrice (row : ItemRow) (plan : PricePlan) (priceId priceMinor : Nat) : Stmt Catalog :=
  update Catalog.channelPricesT (fun s r => r.id == priceId && planLanded s row plan)
    fun _ r => { r with priceMinor := priceMinor }

def setAgentPrice (row : ItemRow) (plan : PricePlan) (listingId old new : Nat) : Stmt Catalog :=
  update Catalog.listingsT (fun s r => r.id == listingId && (r.priceMinor == old && planLanded s row plan))
    fun _ r => { r with priceMinor := new }

def bumpProduct (row : ItemRow) (plan : PricePlan) : Stmt Catalog :=
  update Catalog.productsT (fun s p => p.id == row.productId && planLanded s row plan)
    fun _ p => { p with revision := p.revision + 1, changes := p.changes + 1 }

def planAudit (row : ItemRow) (plan : PricePlan) (context : PlanContext) : CatalogAudit where
  action := context.action
  targetId := row.id
  before := some ⟨row.priceMinor, row.alipayMinor, row.agentPriceMinor, row.version⟩
  after := some ⟨plan.usdtNew, plan.alipayNew, plan.agentNew, row.version + 1⟩
  costs := some (context.costMinor, context.floorMinor)

def auditPlan (row : ItemRow) (plan : PricePlan) (context : PlanContext) : Stmt Catalog := fun _ s =>
  .ok (if planLanded s row plan then 1 else 0,
    { s with audits := s.audits ++ if planLanded s row plan then [planAudit row plan context] else [] })

/-- Every statement after the first asks whether the item update has landed. -/
def planStatements (row : ItemRow) (plan : PricePlan) (context : PlanContext) : List (Stmt Catalog) :=
  setItemPrice row plan context :: (row.usdtPriceId.toList.map fun id => setChannelPrice row plan id plan.usdtNew) ++
    (match row.alipayPriceId, plan.alipayNew with
      | some id, some price => [setChannelPrice row plan id price]
      | _, _ => []) ++
    (match row.agentListingId, plan.agentNew, plan.agentOld with
      | some id, some new, some old => [setAgentPrice row plan id old new]
      | _, _, _ => []) ++
    [bumpProduct row plan, auditPlan row plan context]

def planApplied (results : List Nat) : Bool := results.head? == some 1

def applyPlan (row : ItemRow) (plan : PricePlan) (context : PlanContext) : CatalogProg Bool := do
  let results ← commit (.applyPlan row plan context) (planStatements row plan context)
  .done (planApplied results)

/-! ## The callers -/

def applyPlans (planOf : ItemRow → Option (PricePlan × PlanContext)) : List ItemRow → CatalogProg (List (Id × Bool))
  | [] => .done []
  | row :: rows =>
    match planOf row with
    | none => applyPlans planOf rows
    | some (plan, context) => do
      let applied ← applyPlan row plan context
      let outcomes ← applyPlans planOf rows
      .done ((row.id, applied) :: outcomes)

def loadMembers (upgradeItem : Id) : List Id → CatalogProg (List ItemRow)
  | [] => .done []
  | id :: ids => do
    let found ← loadItems upgradeItem (some id)
    let others ← loadMembers upgradeItem ids
    .done (found ++ others)

def equalizeGroups (upgradeItem : Id) (equalize : List ItemRow → ItemRow → Option (PricePlan × PlanContext)) :
    List (List Id) → CatalogProg (List (Id × Bool))
  | [] => .done []
  | group :: groups => do
    let members ← loadMembers upgradeItem group
    let outcomes ← (if members.length < 2 then .done [] else applyPlans (equalize members) members)
    let others ← equalizeGroups upgradeItem equalize groups
    .done (outcomes ++ others)

def runPricingGuard (upgradeItem : Id) (planOf : ItemRow → Option (PricePlan × PlanContext)) (groups : List (List Id))
    (equalize : List ItemRow → ItemRow → Option (PricePlan × PlanContext)) : CatalogProg (List (Id × Bool)) := do
  let rows ← loadItems upgradeItem none
  let outcomes ← applyPlans planOf rows
  let others ← equalizeGroups upgradeItem equalize groups
  .done (outcomes ++ others)

structure PricingRaisePayload where
  itemId : Id
  version : Nat
  priceMinor : Nat
  alipayMinor : Option Nat
  costMinor : Nat
  floorMinor : Nat
  supplierMinor : Option Nat
  /-- missing in older offers -/
  agentMinor : Option (Option Nat)
  plan : PricePlan

def PricingRaisePayload.fits (payload : PricingRaisePayload) (row : ItemRow) : Bool :=
  row.version == payload.version && row.priceMinor == payload.priceMinor && row.alipayMinor == payload.alipayMinor &&
    payload.agentMinor.all (· == row.agentPriceMinor)

def approvePricingRaise (upgradeItem : Id) (payload : PricingRaisePayload) : CatalogProg Unit := do
  let rows ← loadItems upgradeItem (some payload.itemId)
  match rows.head?.filter payload.fits with
  | none => throw ⟨"pricing_raise_stale", 409, "价格已经被改过或规格已下架"⟩
  | some row => do
    let applied ← applyPlan row payload.plan
      ⟨payload.costMinor, payload.floorMinor, payload.supplierMinor, "pricing_guard.owner_raise"⟩
    if applied then .done () else throw ⟨"pricing_raise_stale", 409, "价格刚被改过"⟩

/-! ## Calls -/

inductive CatalogCall where
  | edit (productId : Id) (edit : CatalogProduct → ProductEdit)
  | guard (upgradeItem : Id) (planOf : ItemRow → Option (PricePlan × PlanContext)) (groups : List (List Id))
      (equalize : List ItemRow → ItemRow → Option (PricePlan × PlanContext))
  | approveRaise (upgradeItem : Id) (payload : PricingRaisePayload)

def CatalogCall.code : CatalogCall → CatalogProg Unit
  | .edit productId change => editProduct productId change
  | .guard upgradeItem planOf groups equalize => (runPricingGuard upgradeItem planOf groups equalize).void
  | .approveRaise upgradeItem payload => approvePricingRaise upgradeItem payload

/-! ## What the callers need -/

/-- What is asserted of a loaded row: it lasts, every load establishes it, and plans are applied under it. -/
structure GuardRules {τ : Type} (S : Spec Catalog CatalogSite τ) (P : CatalogSite → Catalog → Prop)
    (R : ItemRow → Catalog → Prop) : Prop where
  later : ∀ row s t, S.rely ∅ s t → R row s → R row t
  loaded : ∀ upgradeItem onlyItemId s,
    Attests S P (fun rows t => ∀ row ∈ rows, R row t) (loadItems upgradeItem onlyItemId) s
  applied : ∀ row plan context s, R row s → Attests S P (fun _ _ => True) (applyPlan row plan context) s

namespace GuardRules

variable {τ : Type} {S : Spec Catalog CatalogSite τ} {P : CatalogSite → Catalog → Prop} {R : ItemRow → Catalog → Prop}

section

variable (h : GuardRules S P R)
include h

theorem applyPlans (planOf : ItemRow → Option (PricePlan × PlanContext)) {rows : List ItemRow} {s : Catalog}
    (hrows : ∀ row ∈ rows, R row s) : Attests S P (fun _ _ => True) (applyPlans planOf rows) s := by
  induction rows generalizing s with
  | nil => exact done trivial
  | cons row rows ih =>
    have hrest : ∀ row ∈ rows, R row s := fun x hx => hrows x (mem_cons_of_mem _ hx)
    unfold Gmshop.applyPlans
    split
    · exact ih hrest
    · refine bind (h.applied row _ _ s (hrows row mem_cons_self)) fun applied t hr _ => ?_
      exact bind (ih fun x hx => h.later x s t hr (hrest x hx)) fun _ _ _ _ => done trivial

theorem loadMembers (upgradeItem : Id) (ids : List Id) (s : Catalog) :
    Attests S P (fun rows t => ∀ row ∈ rows, R row t) (loadMembers upgradeItem ids) s := by
  induction ids generalizing s with
  | nil => exact done fun row hrow => absurd hrow not_mem_nil
  | cons id ids ih =>
    refine bind (h.loaded _ _ s) fun found t _ hfound => ?_
    refine bind (ih t) fun others u hr hothers => done fun row hrow => ?_
    rcases mem_append.mp hrow with hrow | hrow
    · exact h.later row t u hr (hfound row hrow)
    · exact hothers row hrow

theorem equalizeGroups (upgradeItem : Id) (equalize : List ItemRow → ItemRow → Option (PricePlan × PlanContext))
    (groups : List (List Id)) (s : Catalog) :
    Attests S P (fun _ _ => True) (equalizeGroups upgradeItem equalize groups) s := by
  induction groups generalizing s with
  | nil => exact done trivial
  | cons group groups ih =>
    refine bind (h.loadMembers _ _ s) fun members t _ hmembers => ?_
    have houtcomes : Attests S P (fun _ _ => True)
        (if members.length < 2 then .done [] else Gmshop.applyPlans (equalize members) members) t := by
      split
      · exact done trivial
      · exact h.applyPlans _ hmembers
    refine bind houtcomes fun _ u _ _ => ?_
    exact bind (ih u) fun _ _ _ _ => done trivial

theorem runPricingGuard (upgradeItem : Id) (planOf : ItemRow → Option (PricePlan × PlanContext))
    (groups : List (List Id)) (equalize : List ItemRow → ItemRow → Option (PricePlan × PlanContext))
    (s : Catalog) : Attests S P (fun _ _ => True) (runPricingGuard upgradeItem planOf groups equalize) s := by
  refine bind (h.loaded _ _ s) fun rows t _ hrows => ?_
  refine bind (h.applyPlans planOf hrows) fun _ u _ _ => ?_
  exact bind (h.equalizeGroups _ _ _ u) fun _ _ _ _ => done trivial

theorem approvePricingRaise (upgradeItem : Id) (payload : PricingRaisePayload) (s : Catalog) :
    Attests S P (fun _ _ => True) (approvePricingRaise upgradeItem payload) s := by
  refine bind (h.loaded _ _ s) fun rows t _ hrows => ?_
  split
  · exact throw _
  · next row hrow =>
    have hmem : row ∈ rows := mem_of_head? (Option.filter_eq_some_iff.mp hrow).1
    refine bind (h.applied row _ _ t (hrows row hmem)) fun applied u _ _ => ?_
    split
    · exact done trivial
    · exact throw _

end

end GuardRules

end Gmshop
