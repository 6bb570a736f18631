import GmshopEdge.Catalog.PlanBatch
import GmshopEdge.Lib.Checked

/-!
# A price plan is applied whole or not at all

A plan's batch runs on after its first statement has missed, and its later statements look for the plan's version
and price only; a competing plan may have written the same. `planWhole` is the condition under which that does
not happen: the batch finds its item, or no landed plan. Under it, every call that is about to apply a plan
applies it whole or not at all, whatever the others do in between.

What a caller has read of an item stays true as long as the item keeps its version (`PricesHeld`); that is where
edits must not bring a version back (`editsBump`).
-/

namespace Gmshop

open List Sql Stmt Prog Table Attests

/-! ## The property -/

/-- A plan's prices, its version, one revision of the product and one audit row. -/
structure PlanSet (row : ItemRow) (plan : PricePlan) (context : PlanContext) (s t : Catalog) : Prop where
  item : ∃ i, t.items.get? row.id = some i ∧ i.priceMinor = plan.usdtNew ∧ i.version = row.version + 1
  usdt : ∀ id, row.usdtPriceId = some id → ∃ r, t.channelPrices.get? id = some r ∧ r.priceMinor = plan.usdtNew
  alipay : ∀ id price, row.alipayPriceId = some id → plan.alipayNew = some price →
    ∃ r, t.channelPrices.get? id = some r ∧ r.priceMinor = price
  agent : ∀ id price, row.agentListingId = some id → plan.agentNew = some price →
    ∃ r, t.listings.get? id = some r ∧ r.priceMinor = price
  products : t.products.rows = s.products.rows.map row.bumped
  audits : t.audits = s.audits ++ [planAudit row plan context]

/-- A call that answers false has changed nothing; one that answers true has set its plan. -/
def AllOrNothing (row : ItemRow) (plan : PricePlan) (context : PlanContext) (s t : Catalog) (results : List Nat) :
    Prop :=
  (planApplied results = false → t = s) ∧ (planApplied results = true → PlanSet row plan context s t)

def appliesWhole (x : CatalogSite) (s : Catalog) : Prop :=
  match x with
  | .applyPlan row plan context => ∀ results t, batch (planStatements row plan context) 0 s = .ok (results, t) →
      AllOrNothing row plan context s t results
  | _ => True

/-! ## The conditions -/

/-- An edit writes no item under an earlier version, nor under the id of one that was deleted. -/
def editsBump (x : CatalogSite) (s : Catalog) : Prop :=
  match x with
  | .saveItems _ _ _ written => ∀ i ∈ written, i.id ∉ s.removed ∧ ∀ j ∈ s.items.rows, j.id = i.id → j.version ≤ i.version
  | _ => True

/-- The plan knows the listing's price: it was made for that price, or leaves it. -/
def agentKnown (row : ItemRow) (plan : PricePlan) : Prop :=
  plan.agentNew.isSome → plan.agentOld = row.agentPriceMinor ∨ plan.agentNew = row.agentPriceMinor

/-- The item is as the plan's row says and the plan knows the listing's price, or no plan of this version and
price has landed. -/
def planWhole (x : CatalogSite) (s : Catalog) : Prop :=
  editsBump x s ∧ match x with
    | .applyPlan row plan _ => if planHits s row then agentKnown row plan else planLanded s row plan = false
    | _ => True

instance (x : CatalogSite) (s : Catalog) : Decidable (editsBump x s) := by
  casesm CatalogSite <;> dsimp only [editsBump] <;> infer_instance

instance (row : ItemRow) (plan : PricePlan) : Decidable (agentKnown row plan) := by
  unfold agentKnown
  infer_instance

instance (x : CatalogSite) (s : Catalog) : Decidable (planWhole x s) := by
  casesm CatalogSite <;> dsimp only [planWhole] <;> infer_instance

/-! ## What a caller can rely on -/

structure SamePrices (id : Id) (s t : Catalog) : Prop where
  channels : ∀ r ∈ s.channelPrices.rows, r.sellableItemId = id → r ∈ t.channelPrices.rows
  listings : ∀ r ∈ s.listings.rows, r.sellableItemId = id → r ∈ t.listings.rows

variable {id itemId : Id} {s s₀ t u : Catalog} {row : ItemRow} {r : ChannelPrice} {sts : List (Stmt Catalog)}
  {c : Nat} {ns : List Nat} {written : List CatalogItem} {removed : List Id} {α β : Type}
  {Q : α → Catalog → Prop}

theorem SamePrices.trans (h : SamePrices id s t) (h' : SamePrices id t u) : SamePrices id s u where
  channels r hr hid := h'.channels r (h.channels r hr hid) hid
  listings r hr hid := h'.listings r (h.listings r hr hid) hid

/-- An item is deleted for good or moves on to later versions, and keeps its prices with its version. -/
structure PricesHeld (s t : Catalog) : Prop where
  removed : s.removed ⊆ t.removed
  items : ∀ i ∈ s.items.rows, i.id ∈ t.removed ∨
    ∃ j, t.items.get? i.id = some j ∧ i.version ≤ j.version ∧ (j.version = i.version → SamePrices i.id s t)

theorem PricesHeld.refl (s : Catalog) : PricesHeld s s where
  removed := List.Subset.refl _
  items i hi := Or.inr ⟨i, mem_get? hi, Nat.le_refl _, fun _ => ⟨fun _ hr _ => hr, fun _ hr _ => hr⟩⟩

theorem PricesHeld.trans (h : PricesHeld s t) (h' : PricesHeld t u) : PricesHeld s u where
  removed := List.Subset.trans h.removed h'.removed
  items i hi := by
    rcases h.items i hi with hgone | ⟨j, hj, hle, hsame⟩
    · exact Or.inl (h'.removed hgone)
    have hid : j.id = i.id := get?_key hj
    rcases h'.items j (get?_mem hj) with hgone | ⟨k, hk, hle', hsame'⟩
    · exact Or.inl (hid ▸ hgone)
    rw [hid] at hk hsame'
    refine Or.inr ⟨k, hk, hle.trans hle', fun heq => ?_⟩
    have hj' : j.version = i.version := by omega
    exact (hsame hj').trans (hsame' (by omega))

def NoneBack (s : Catalog) : Prop := ∀ i ∈ s.items.rows, i.id ∉ s.removed

def planSpec : Spec Catalog CatalogSite Empty :=
  .ofRel NoneBack planWhole (fun _ _ => True) PricesHeld (fun _ => trivial) PricesHeld.refl
    fun _ _ _ h h' => h.trans h'

theorem admits_plan (ht : NoneBack t) (h : PricesHeld s t) : planSpec.Admits ∅ ∅ s t :=
  Spec.admits_ofRel ht trivial fun _ => h

/-! ## Rows -/

structure RowFrom (s : Catalog) (row : ItemRow) : Prop where
  item : ∃ i, s.items.get? row.id = some i ∧ i.version = row.version
  usdt : ∀ id, row.usdtPriceId = some id →
    ∃ r ∈ s.channelPrices.rows, r.id = id ∧ r.sellableItemId = row.id ∧ r.channel = .usdt
  alipay : ∀ id, row.alipayPriceId = some id →
    ∃ r ∈ s.channelPrices.rows, r.id = id ∧ r.sellableItemId = row.id ∧ r.channel = .alipay
  agent : ∀ id, row.agentListingId = some id →
    ∃ r ∈ s.listings.rows, r.id = id ∧ r.sellableItemId = row.id ∧ row.agentPriceMinor = some r.priceMinor

def RowRead (row : ItemRow) (t : Catalog) : Prop := ∃ s, RowFrom s row ∧ PricesHeld s t

theorem RowRead.later (h : RowRead row t) (hr : PricesHeld t u) : RowRead row u :=
  let ⟨s, hrow, hs⟩ := h
  ⟨s, hrow, hs.trans hr⟩

theorem channelPrice_some {channel : PriceChannel} (h : channelPrice s itemId channel = some r) :
    r ∈ s.channelPrices.rows ∧ r.sellableItemId = itemId ∧ r.channel = channel := by
  have hp := find?_some h
  simp only [Bool.and_eq_true, beq_iff_eq] at hp
  exact ⟨mem_of_find?_eq_some h, hp.1.1, hp.2⟩

theorem agentListing_some {r : ExportListing} (h : agentListing s itemId = some r) :
    r ∈ s.listings.rows ∧ r.sellableItemId = itemId := by
  have hp := find?_some h
  simp only [Bool.and_eq_true, beq_iff_eq] at hp
  exact ⟨mem_of_find?_eq_some h, hp.1.1.1⟩

theorem itemRow_from {item : CatalogItem} (hitem : item ∈ s.items.rows) : RowFrom s (itemRow s item) where
  item := ⟨item, mem_get? hitem, rfl⟩
  usdt id hid := by
    obtain ⟨r, hr, rfl⟩ := Option.map_eq_some_iff.mp hid
    obtain ⟨hmem, hof, hchannel⟩ := channelPrice_some hr
    exact ⟨r, hmem, rfl, hof, hchannel⟩
  alipay id hid := by
    obtain ⟨r, hr, rfl⟩ := Option.map_eq_some_iff.mp hid
    obtain ⟨hmem, hof, hchannel⟩ := channelPrice_some hr
    exact ⟨r, hmem, rfl, hof, hchannel⟩
  agent id hid := by
    obtain ⟨r, hr, rfl⟩ := Option.map_eq_some_iff.mp hid
    obtain ⟨hmem, hof⟩ := agentListing_some hr
    exact ⟨r, hmem, rfl, hof, congrArg (Option.map _) hr⟩

theorem RowRead.now (h : RowRead row t) (ht : NoneBack t) (hhit : planHits t row = true) : RowFrom t row := by
  obtain ⟨s, hrow, hheld⟩ := h
  obtain ⟨j, hj, hversion, -⟩ := planHits_iff.mp hhit
  obtain ⟨i, hi, hiv⟩ := hrow.item
  have hid : i.id = row.id := get?_key hi
  have hsame : SamePrices row.id s t := by
    rcases hheld.items i (get?_mem hi) with hgone | ⟨k, hk, -, hsame⟩
    · have hjid : j.id = row.id := get?_key hj
      rw [hid, ← hjid] at hgone
      exact absurd hgone (ht j (get?_mem hj))
    · rw [hid] at hk hsame
      rw [hj] at hk
      refine hsame ?_
      rw [← Option.some.inj hk, hversion, hiv]
  refine ⟨⟨j, hj, hversion⟩, fun id hid => ?_, fun id hid => ?_, fun id hid => ?_⟩
  · obtain ⟨r, hr, hrid, hof, hchannel⟩ := hrow.usdt id hid
    exact ⟨r, hsame.channels r hr hof, hrid, hof, hchannel⟩
  · obtain ⟨r, hr, hrid, hof, hchannel⟩ := hrow.alipay id hid
    exact ⟨r, hsame.channels r hr hof, hrid, hof, hchannel⟩
  · obtain ⟨r, hr, hrid, hof, hprice⟩ := hrow.agent id hid
    exact ⟨r, hsame.listings r hr hof, hrid, hof, hprice⟩

/-! ## What a plan's batch leaves -/

section Effect

variable {row : ItemRow} {plan : PricePlan} {context : PlanContext} {s t : Catalog}

section

variable (h : PlanEffect row plan context s t)
include h

theorem PlanEffect.getItem (id : Id) : t.items.get? id = (s.items.get? id).map (row.priced plan context) :=
  get?_map h.items priced_id id

theorem PlanEffect.getChannel (hr : r ∈ s.channelPrices.rows) :
    t.channelPrices.get? r.id = some (row.pricedChannel plan r) := by
  rw [get?_map h.channelPrices pricedChannel_id, show s.channelPrices.get? r.id = some r from mem_get? hr]
  rfl

theorem PlanEffect.getListing {r : ExportListing} (hr : r ∈ s.listings.rows) :
    t.listings.get? r.id = some (row.pricedListing plan r) := by
  rw [get?_map h.listings pricedListing_id, show s.listings.get? r.id = some r from mem_get? hr]
  rfl

end

theorem RowFrom.channels_ne (h : RowFrom s row) (hu : row.usdtPriceId = some id) : row.alipayPriceId ≠ some id := by
  intro ha
  obtain ⟨r, hr, hrid, -, hchannel⟩ := h.usdt id hu
  obtain ⟨r', hr', hrid', -, hchannel'⟩ := h.alipay id ha
  have heq : r = r' := eq_of_key hr hr' (hrid.trans hrid'.symm)
  rw [heq, hchannel'] at hchannel
  cases hchannel

theorem RowFrom.pricedChannel_other (h : RowFrom s row) (hr : r ∈ s.channelPrices.rows)
    (hof : r.sellableItemId ≠ row.id) : row.pricedChannel plan r = r := by
  have hnamed : ∀ id, (row.usdtPriceId = some id ∨ row.alipayPriceId = some id) → id ≠ r.id := by
    rintro id hid rfl
    have hown : ∃ x ∈ s.channelPrices.rows, x.id = r.id ∧ x.sellableItemId = row.id := by
      rcases hid with hid | hid
      · obtain ⟨x, hx, hxid, hxof, -⟩ := h.usdt _ hid
        exact ⟨x, hx, hxid, hxof⟩
      · obtain ⟨x, hx, hxid, hxof, -⟩ := h.alipay _ hid
        exact ⟨x, hx, hxid, hxof⟩
    obtain ⟨x, hx, hxid, hxof⟩ := hown
    rw [show x = r from eq_of_key hx hr hxid] at hxof
    exact hof hxof
  unfold ItemRow.pricedChannel
  have husdt : setIfNamed row.usdtPriceId (some plan.usdtNew) r = r :=
    if_neg fun hid => hnamed r.id (Or.inl hid) rfl
  rw [husdt]
  exact if_neg fun hid => hnamed r.id (Or.inr hid) rfl

theorem RowFrom.pricedListing_other (h : RowFrom s row) {r : ExportListing} (hr : r ∈ s.listings.rows)
    (hof : r.sellableItemId ≠ row.id) : row.pricedListing plan r = r := by
  refine if_neg fun hnamed => ?_
  obtain ⟨x, hx, hxid, hxof, -⟩ := h.agent _ hnamed.1
  rw [show x = r from eq_of_key hx hr hxid] at hxof
  exact hof hxof

section

variable (h : PlanEffect row plan context s t)
include h

theorem PlanEffect.set (hrow : RowFrom s row) (hagent : agentKnown row plan) :
    PlanSet row plan context s t where
  item := by
    obtain ⟨i, hi, hversion⟩ := hrow.item
    obtain ⟨hnew, hnext⟩ := @priced_hit row plan context i (get?_key hi)
    refine ⟨row.priced plan context i, ?_, hnew, ?_⟩
    · rw [h.getItem, hi]
      rfl
    · rw [hnext, hversion]
  usdt id hid := by
    obtain ⟨r, hr, rfl, -⟩ := hrow.usdt id hid
    refine ⟨_, h.getChannel hr, ?_⟩
    unfold ItemRow.pricedChannel
    have hother : row.alipayPriceId ≠ some (setIfNamed row.usdtPriceId (some plan.usdtNew) r).id := by
      rw [setIfNamed_id]
      exact hrow.channels_ne hid
    rw [setIfNamed, if_neg hother, setIfNamed, if_pos hid]
    rfl
  alipay id price hid hprice := by
    obtain ⟨r, hr, rfl, -⟩ := hrow.alipay id hid
    refine ⟨_, h.getChannel hr, ?_⟩
    unfold ItemRow.pricedChannel
    rw [hprice, setIfNamed, if_pos (by rw [setIfNamed_id]; exact hid)]
    rfl
  agent id price hid hprice := by
    obtain ⟨r, hr, rfl, -, hold⟩ := hrow.agent id hid
    refine ⟨_, h.getListing hr, ?_⟩
    unfold ItemRow.pricedListing
    split
    · rw [hprice]
      rfl
    · next hnot =>
      rcases hagent (by rw [hprice]; rfl) with hknown | hkeeps
      · exact absurd ⟨hid, hknown.trans hold⟩ hnot
      · rw [hprice, hold] at hkeeps
        exact (Option.some.inj hkeeps).symm
  products := h.products
  audits := h.audits

theorem PlanEffect.held (hrow : RowFrom s row) : PricesHeld s t where
  removed := by
    rw [h.others.2.2]
    exact List.Subset.refl _
  items i hi := by
    have hget : t.items.get? i.id = some (row.priced plan context i) := by
      rw [h.getItem, show s.items.get? i.id = some i from mem_get? hi]
      rfl
    by_cases hid : i.id = row.id
    · obtain ⟨-, hnext⟩ := @priced_hit row plan context i hid
      refine Or.inr ⟨_, hget, ?_, fun heq => ?_⟩
      · omega
      · omega
    · rw [priced_other hid] at hget
      refine Or.inr ⟨i, hget, Nat.le_refl _, fun _ => ⟨fun r hr hof => ?_, fun r hr hof => ?_⟩⟩
      · rw [h.channelPrices, mem_map]
        exact ⟨r, hr, hrow.pricedChannel_other hr fun heq => hid (hof.symm.trans heq)⟩
      · rw [h.listings, mem_map]
        exact ⟨r, hr, hrow.pricedListing_other hr fun heq => hid (hof.symm.trans heq)⟩

theorem PlanEffect.noneBack (hs : NoneBack s) : NoneBack t := by
  intro i hi
  rw [h.items] at hi
  obtain ⟨j, hj, rfl⟩ := mem_map.mp hi
  rw [priced_id, h.others.2.2]
  exact hs j hj

end

end Effect

/-! ## What an edit's batch leaves -/

/-- The items keep their ids and versions, and all prices in the channels and for agents stay. -/
structure PricesKept (s t : Catalog) : Prop where
  channelPrices : t.channelPrices = s.channelPrices
  listings : t.listings = s.listings
  removed : t.removed = s.removed
  items : ∃ g : CatalogItem → CatalogItem, t.items.rows = s.items.rows.map g ∧ ∀ i, (g i).id = i.id ∧ (g i).version = i.version

theorem PricesKept.refl (s : Catalog) : PricesKept s s :=
  ⟨rfl, rfl, rfl, fun i => i, (map_id' _).symm, fun _ => ⟨rfl, rfl⟩⟩

theorem PricesKept.trans (s t u : Catalog) (h : PricesKept s t) (h' : PricesKept t u) : PricesKept s u := by
  obtain ⟨hchannels, hlistings, hremoved, g, hrows, hg⟩ := h
  obtain ⟨hchannels', hlistings', hremoved', g', hrows', hg'⟩ := h'
  refine ⟨hchannels'.trans hchannels, hlistings'.trans hlistings, hremoved'.trans hremoved, g' ∘ g, ?_, fun i => ?_⟩
  · rw [hrows', hrows, map_map]
  · exact ⟨(hg' (g i)).1.trans (hg i).1, (hg' (g i)).2.trans (hg i).2⟩

theorem PricesKept.held (h : PricesKept s t) : PricesHeld s t where
  removed := by
    rw [h.removed]
    exact List.Subset.refl _
  items i hi := by
    obtain ⟨g, hrows, hg⟩ := h.items
    refine Or.inr ⟨g i, ?_, (hg i).2.ge, fun _ => ⟨fun r hr _ => ?_, fun r hr _ => ?_⟩⟩
    · rw [get?_map hrows (fun j => (hg j).1), show s.items.get? i.id = some i from mem_get? hi]
      rfl
    · rw [h.channelPrices]
      exact hr
    · rw [h.listings]
      exact hr

theorem PricesKept.noneBack (h : PricesKept s t) (hs : NoneBack s) : NoneBack t := by
  obtain ⟨g, hrows, hg⟩ := h.items
  intro i hi
  rw [hrows] at hi
  obtain ⟨j, hj, rfl⟩ := mem_map.mp hi
  rw [h.removed, (hg j).1]
  exact hs j hj

theorem PricesKept.admits (h : PricesKept s t) (hs : NoneBack s) : planSpec.Admits ∅ ∅ s t :=
  admits_plan (h.noneBack hs) h.held

theorem pricesKept_of (h : (t.items, t.channelPrices, t.listings, t.removed) =
    (s.items, s.channelPrices, s.listings, s.removed)) : PricesKept s t := by
  simp only [Prod.mk.injEq] at h
  refine ⟨h.2.1, h.2.2.1, h.2.2.2, fun i => i, ?_, fun _ => ⟨rfl, rfl⟩⟩
  rw [h.1, map_id']

theorem updateProducts_kept (p : Catalog → CatalogProduct → Bool) (f : Catalog → CatalogProduct → CatalogProduct) :
    Within PricesKept (update Catalog.productsT p f) := by
  intro c s n t h
  exact pricesKept_of (Keeps.eq (update_keeps (g := fun s : Catalog => (s.items, s.channelPrices, s.listings, s.removed)) fun _ _ => rfl) h)

theorem audit_kept (action : String) (targetId : Id) : Within PricesKept (audit action targetId) := by
  intro c s n t h
  obtain ⟨-, rfl⟩ := Prod.mk.inj (Except.ok.inj h)
  exact pricesKept_of rfl

theorem updateItems_kept {p : Catalog → CatalogItem → Bool} {f : Catalog → CatalogItem → CatalogItem}
    (hf : ∀ s i, (f s i).id = i.id ∧ (f s i).version = i.version) : Within PricesKept (update Catalog.itemsT p f) := by
  intro c s n t h
  obtain ⟨-, table, hrows, rfl⟩ := update_ok h
  refine ⟨rfl, rfl, rfl, _, hrows, fun i => ?_⟩
  split
  · exact hf s i
  · exact ⟨rfl, rfl⟩

theorem kept_batch (hsts : ∀ st ∈ sts, Within PricesKept st) (h : batch sts c s = .ok (ns, t)) : PricesKept s t :=
  batch_within PricesKept.refl PricesKept.trans hsts h

theorem noteLoaded_kept (p : CatalogProduct → Bool) (s : Catalog) : PricesKept s (noteLoaded p s) := by
  unfold noteLoaded
  split
  · next t h => exact updateProducts_kept _ _ _ _ _ _ h
  · exact PricesKept.refl s

/-! ### Written and deleted items -/

/-- Items have been written over those of `s₀`, none under an earlier version. -/
structure Upserted (s₀ s : Catalog) : Prop where
  channelPrices : s.channelPrices = s₀.channelPrices
  listings : s.listings = s₀.listings
  removed : s.removed = s₀.removed
  items : ∀ i ∈ s₀.items.rows, ∃ j, s.items.get? i.id = some j ∧ i.version ≤ j.version
  noneBack : NoneBack s

theorem Upserted.held (h : Upserted s₀ s) : PricesHeld s₀ s where
  removed := by
    rw [h.removed]
    exact List.Subset.refl _
  items i hi := by
    obtain ⟨j, hj, hle⟩ := h.items i hi
    refine Or.inr ⟨j, hj, hle, fun _ => ⟨fun r hr _ => ?_, fun r hr _ => ?_⟩⟩
    · rw [h.channelPrices]
      exact hr
    · rw [h.listings]
      exact hr

theorem Upserted.item (h : Upserted s₀ s) {row : CatalogItem} (hback : row.id ∉ s₀.removed)
    (hversion : ∀ j ∈ s₀.items.rows, j.id = row.id → j.version ≤ row.version) {n : Nat}
    (hst : upsertItem row c s = .ok (n, t)) : Upserted s₀ t := by
  obtain ⟨table, rfl, ⟨-, hrows⟩ | ⟨-, hrows⟩⟩ := upsertItem_ok hst
  · refine ⟨h.channelPrices, h.listings, h.removed, fun i hi => ?_, fun i hi => ?_⟩
    · obtain ⟨j, hj, hle⟩ := h.items i hi
      have hjid : j.id = i.id := get?_key hj
      refine ⟨row.over j, (get?_map hrows (over_id row) i.id).trans (congrArg _ hj), ?_⟩
      unfold CatalogItem.over
      split
      · next hid => exact hversion i hi (hjid.symm.trans hid)
      · exact hle
    · have hi : i ∈ table.rows := hi
      rw [hrows] at hi
      obtain ⟨j, hj, rfl⟩ := mem_map.mp hi
      rw [over_id]
      exact h.noneBack j hj
  · refine ⟨h.channelPrices, h.listings, h.removed, fun i hi => ?_, fun i hi => ?_⟩
    · obtain ⟨j, hj, hle⟩ := h.items i hi
      exact ⟨j, get?_append hrows hj, hle⟩
    · have hi : i ∈ table.rows := hi
      rw [hrows] at hi
      rcases mem_append.mp hi with hi | hi
      · exact h.noneBack i hi
      · rw [mem_singleton.mp hi]
        show row.id ∉ s.removed
        rw [h.removed]
        exact hback

theorem Upserted.batch
    (hwritten : ∀ i ∈ written, i.id ∉ s₀.removed ∧ ∀ j ∈ s₀.items.rows, j.id = i.id → j.version ≤ i.version)
    (h : Upserted s₀ s) (hst : batch (written.map upsertItem) c s = .ok (ns, t)) : Upserted s₀ t := by
  induction written generalizing c s ns with
  | nil => exact segment_nil hst ▸ h
  | cons row written ih =>
    obtain ⟨n, s1, ms, hfirst, hrest, -⟩ := batch_cons_ok hst
    obtain ⟨hback, hversion⟩ := hwritten row mem_cons_self
    exact ih (fun i hi => hwritten i (mem_cons_of_mem _ hi)) (h.item hback hversion hfirst) hrest

/-- A step that keeps the prices of every item that is not deleted in it, and brings none back. -/
def PricesSafe (s t : Catalog) : Prop := PricesHeld s t ∧ (NoneBack s → NoneBack t)

theorem PricesSafe.trans (h : PricesSafe s t) (h' : PricesSafe t u) : PricesSafe s u :=
  ⟨h.1.trans h'.1, fun hs => h'.2 (h.2 hs)⟩

theorem PricesKept.safe (h : PricesKept s t) : PricesSafe s t := ⟨h.held, h.noneBack⟩

theorem deleteItem_safe {id : Nat} (h : batch (deleteItem id) c s = .ok (ns, t)) : PricesSafe s t := by
  rcases deleteItem_ok h with ⟨-, rfl⟩ | ⟨-, channels, listings, items, hchannels, hlistings, hitems, rfl⟩
  · exact (PricesKept.refl _).safe
  refine ⟨⟨subset_cons_self _ _, fun i hi => ?_⟩, fun hs i hi => ?_⟩
  · by_cases hid : i.id = id
    · exact Or.inl (hid ▸ mem_cons_self)
    · have hmem : i ∈ items.rows := by
        rw [hitems]
        exact mem_filter.mpr ⟨hi, bne_iff_ne.mpr hid⟩
      refine Or.inr ⟨i, mem_get? hmem, Nat.le_refl _, fun _ => ⟨fun r hr hof => ?_, fun r hr hof => ?_⟩⟩
      · show r ∈ channels.rows
        rw [hchannels]
        exact mem_filter.mpr ⟨hr, bne_iff_ne.mpr fun heq => hid (hof.symm.trans heq)⟩
      · show r ∈ listings.rows
        rw [hlistings]
        exact mem_filter.mpr ⟨hr, bne_iff_ne.mpr fun heq => hid (hof.symm.trans heq)⟩
  · have hi : i ∈ items.rows := hi
    rw [hitems] at hi
    obtain ⟨hmem, hne⟩ := mem_filter.mp hi
    show i.id ∉ id :: s.removed
    rw [mem_cons, not_or]
    exact ⟨bne_iff_ne.mp hne, hs i hmem⟩

theorem disableItem_kept (id : Id) : Within PricesKept (disableItem id) := updateItems_kept fun _ _ => ⟨rfl, rfl⟩

theorem deletions_safe
    (h : batch (removed.flatMap fun id => deleteItem id ++ [disableItem id]) c s = .ok (ns, t)) : PricesSafe s t := by
  induction removed generalizing c s ns with
  | nil => exact segment_nil h ▸ (PricesKept.refl s).safe
  | cons id removed ih =>
    obtain ⟨ns1, s1, ns2, hfirst, hrest, -⟩ := batch_append_ok h
    obtain ⟨ms1, s2, ms2, hdelete, hdisable, -⟩ := batch_append_ok hfirst
    obtain ⟨n, hdisable, -⟩ := batch_single_ok hdisable
    have hkept : PricesKept s2 s1 := disableItem_kept id _ _ _ _ hdisable
    exact (deleteItem_safe hdelete).trans (hkept.safe.trans (ih hrest))

theorem noteChange_kept (productId : Id) : Within PricesKept (noteChange productId) := updateProducts_kept _ _

theorem setProduct_kept (productId : Id) (f : CatalogProduct → CatalogProduct) : Within PricesKept (setProduct productId f) :=
  updateProducts_kept _ _

theorem sellableItems_safe {productId : Id} (hs : NoneBack s)
    (hwritten : ∀ i ∈ written, i.id ∉ s.removed ∧ ∀ j ∈ s.items.rows, j.id = i.id → j.version ≤ i.version)
    (h : batch (sellableItemsStatements productId written removed) c s = .ok (ns, t)) :
    PricesHeld s t ∧ NoneBack t := by
  unfold sellableItemsStatements at h
  obtain ⟨ns1, s1, ns2, hfirst, hlast, -⟩ := batch_append_ok h
  obtain ⟨ms1, s2, ms2, hwrite, hdelete, -⟩ := batch_append_ok hfirst
  obtain ⟨n, s3, ms3, hstatus, hwrite, -⟩ := batch_cons_ok hwrite
  have hdraft : PricesKept s s3 := setProduct_kept _ _ _ _ _ _ hstatus
  have hstart : Upserted s3 s3 :=
    ⟨rfl, rfl, rfl, fun i hi => ⟨i, mem_get? hi, Nat.le_refl _⟩, hdraft.noneBack hs⟩
  have hups : Upserted s3 s2 := by
    refine hstart.batch (fun i hi => ?_) hwrite
    obtain ⟨hback, hversion⟩ := hwritten i hi
    rw [hdraft.removed]
    refine ⟨hback, fun j hj hid => ?_⟩
    obtain ⟨g, hrows, hg⟩ := hdraft.items
    rw [hrows] at hj
    obtain ⟨k, hk, rfl⟩ := mem_map.mp hj
    rw [(hg k).2]
    exact hversion k hk ((hg k).1.symm.trans hid)
  obtain ⟨hheld, hback⟩ := deletions_safe hdelete
  have hrest : PricesKept s1 t := by
    refine kept_batch (fun st hst => ?_) hlast
    rcases mem_cons.mp hst with rfl | hst
    · exact audit_kept _ _
    · rw [mem_singleton.mp hst]
      exact noteChange_kept _
  exact ⟨hdraft.held.trans (hups.held.trans (hheld.trans hrest.held)), hrest.noneBack (hback hups.noneBack)⟩

/-! ## The calls -/

theorem keptBatch_attests {x : CatalogSite} {k : List Nat → CatalogProg α} (hx : ∀ t, appliesWhole x t)
    (hsts : ∀ st ∈ sts, Within PricesKept st)
    (hk : ∀ ns t, PricesHeld s t → Attests planSpec appliesWhole Q (k ns) t) :
    Attests planSpec appliesWhole Q (commit x sts >>= k) s := by
  refine commit fun t hr ht _ => ⟨hx t, fun ns u hb => ?_⟩
  have hkept := kept_batch hsts hb
  exact ⟨hkept.admits ht, hk ns u (PricesHeld.trans hr hkept.held)⟩

theorem claimRevision_attests (productId expected : Nat) (s : Catalog) :
    Attests planSpec appliesWhole (fun _ _ => True) (claimRevision productId expected) s := by
  refine keptBatch_attests (fun _ => trivial) (fun st hst => ?_) fun ns t _ => ?_
  · rw [mem_singleton.mp hst]
    exact updateProducts_kept _ _
  · split
    · exact throw _
    · exact done trivial

theorem claimAndWrite_attests {productId expected : Nat} {x : Nat → CatalogSite}
    (hx : ∀ r t, appliesWhole (x r) t) (hsts : ∀ st ∈ sts, Within PricesKept st) (s : Catalog) :
    Attests planSpec appliesWhole (fun _ _ => True) (do
      let revision ← claimRevision productId expected
      let _ ← commit (x revision) sts
      .done revision) s := by
  refine bind (claimRevision_attests _ _ s) fun revision t _ _ => ?_
  exact keptBatch_attests (hx revision) hsts fun ns u _ => done trivial

theorem query_attests {g : Catalog → β} {k : β → CatalogProg α}
    (hk : ∀ b t, Attests planSpec appliesWhole Q (k b) t) : Attests planSpec appliesWhole Q (query g >>= k) s :=
  query fun t _ _ => hk (g t) t

section

variable (productId expected : Nat) (loaded : ProductView)
include productId expected loaded

theorem saveProductContent_attests (data : ProductContent) (s : Catalog) :
    Attests planSpec appliesWhole (fun _ _ => True) (saveProductContent productId expected loaded data) s := by
  refine query_attests fun known t => ?_
  split
  · exact throw _
  have hchange : Attests planSpec appliesWhole (fun _ _ => True) (assertProductTypeChange productId data.productType) t := by
    refine query_attests fun current u => ?_
    split
    · exact done trivial
    · refine query_attests fun configured v => ?_
      split
      · exact throw _
      · exact done trivial
  refine bind hchange fun _ u _ _ => claimAndWrite_attests ?_ (fun st hst => ?_) u
  · exact fun _ _ => trivial
  unfold contentStatements at hst
  exact each_three (setProduct_kept _ _) (audit_kept _ _) (noteChange_kept _) _ hst

theorem saveProductSellableItems_attests (fresh : Nat → Id) (items : List ItemInput) (s : Catalog) :
    Attests planSpec appliesWhole (fun _ _ => True)
      (saveProductSellableItems productId expected loaded fresh items) s := by
  refine query_attests fun foreign t => ?_
  split
  · exact throw _
  refine query_attests fun productType t => ?_
  split
  · exact throw _
  split
  · exact throw _
  refine query_attests fun supplierItems t => ?_
  have hassert : Attests planSpec appliesWhole (fun _ _ => True)
      (orThrow (assertSupplierSellableItemChanges supplierItems items)) t := by
    unfold orThrow
    split
    · exact done trivial
    · exact throw _
  refine bind hassert fun _ t _ _ => ?_
  refine bind (claimRevision_attests _ _ t) fun revision t _ _ => ?_
  refine query_attests fun existing t => ?_
  refine commit fun t _ ht hc => ⟨trivial, fun ns u hb => ?_⟩
  obtain ⟨hheld, hback⟩ := sellableItems_safe ht hc.1 hb
  exact ⟨admits_plan hback hheld, done trivial⟩

theorem publishProduct_attests (blockersOf : CatalogItem → List String) (publish : Bool) (s : Catalog) :
    Attests planSpec appliesWhole (fun _ _ => True) (publishProduct productId expected loaded blockersOf publish) s := by
  refine query_attests fun status t => ?_
  split
  · exact throw _
  split
  · exact throw _
  refine query_attests fun checked t => query_attests fun name t => ?_
  dsimp only
  split
  · exact throw _
  refine claimAndWrite_attests ?_ (fun st hst => ?_) t
  · exact fun _ _ => trivial
  unfold publishStatements at hst
  exact each_three (setProduct_kept _ _) (audit_kept _ _) (noteChange_kept _) _ hst

theorem setProductSaleDisabled_attests (disabled : Bool) (s : Catalog) :
    Attests planSpec appliesWhole (fun _ _ => True) (setProductSaleDisabled productId expected loaded disabled) s := by
  refine query_attests fun status t => ?_
  split
  · exact throw _
  split
  · exact throw _
  refine claimAndWrite_attests ?_ (fun st hst => ?_) t
  · exact fun _ _ => trivial
  exact each_three (setProduct_kept _ _) (audit_kept _ _) (noteChange_kept _) _ hst

theorem setSellableItemSaleDisabled_attests (sellableItemId : Id) (disabled : Bool) (s : Catalog) :
    Attests planSpec appliesWhole (fun _ _ => True)
      (setSellableItemSaleDisabled productId expected loaded sellableItemId disabled) s := by
  refine query_attests fun status t => ?_
  split
  · exact throw _
  split
  · exact throw _
  refine claimAndWrite_attests ?_ (fun st hst => ?_) t
  · exact fun _ _ => trivial
  refine each_three ?_ ?_ ?_ _ hst
  · exact updateItems_kept fun _ _ => ⟨rfl, rfl⟩
  · exact audit_kept _ _
  · exact noteChange_kept _

end

theorem load_attests {Q : β → Catalog → Prop} {f : Catalog → β} {p : Catalog → CatalogProduct → Bool}
    (h : ∀ t, Q (f t) (noteLoaded (p t) t)) :
    Attests planSpec appliesWhole Q (.act (some .load) β (fun t => (f t, noteLoaded (p t) t)) .done : CatalogProg β) s :=
  act fun t _ ht _ => ⟨trivial, (noteLoaded_kept _ _).admits ht, done (h t)⟩

theorem editProduct_attests (productId : Id) (change : CatalogProduct → ProductEdit) (s : Catalog) :
    Attests planSpec appliesWhole (fun _ _ => True) (editProduct productId change) s := by
  have hload : Attests planSpec appliesWhole (fun _ _ => True) (loadProduct productId) s := load_attests fun _ => trivial
  refine bind hload fun loaded t _ _ => ?_
  dsimp only
  split
  · exact throw _
  · next product _ =>
    have hedit : Attests planSpec appliesWhole (fun _ _ => True)
        ((change product).handler productId product.revision loaded.2) t := by
      cases change product with
      | content data => exact saveProductContent_attests _ _ _ _ t
      | items fresh inputs => exact saveProductSellableItems_attests _ _ _ _ _ t
      | publish blockersOf on => exact publishProduct_attests _ _ _ _ _ t
      | saleDisabled off => exact setProductSaleDisabled_attests _ _ _ _ t
      | itemSaleDisabled id disabled => exact setSellableItemSaleDisabled_attests _ _ _ _ _ t
    exact bind hedit fun _ _ _ _ => done trivial

/-! ### The guard -/

theorem RowFrom.read (h : RowFrom s row) : RowRead row s := ⟨s, h, PricesHeld.refl s⟩

theorem loadItems_attests (upgradeItem : Id) (onlyItemId : Option Id) (s : Catalog) :
    Attests planSpec appliesWhole (fun rows t => ∀ row ∈ rows, RowRead row t) (loadItems upgradeItem onlyItemId) s := by
  refine load_attests fun t row hrow => ?_
  obtain ⟨item, hitem, rfl⟩ := mem_map.mp hrow
  have hfrom := itemRow_from (mem_filter.mp hitem).1
  exact hfrom.read.later (noteLoaded_kept _ _).held

theorem applyPlan_attests {plan : PricePlan} {context : PlanContext} (hrow : RowRead row s) :
    Attests planSpec appliesWhole (fun _ _ => True) (applyPlan row plan context) s := by
  refine commit fun t hr ht hc => ?_
  have hcond := hc.2
  have hread : RowRead row t := hrow.later hr
  dsimp only at hcond
  by_cases hhit : planHits t row = true
  · rw [if_pos hhit] at hcond
    have hfrom := hread.now ht hhit
    refine ⟨fun ns u hb => ?_, fun ns u hb => ?_⟩
    · obtain ⟨happlied, heffect⟩ := planStatements_hit hhit hb
      refine ⟨fun hnot => ?_, fun _ => heffect.set hfrom hcond⟩
      rw [happlied] at hnot
      cases hnot
    · obtain ⟨-, heffect⟩ := planStatements_hit hhit hb
      exact ⟨admits_plan (heffect.noneBack ht) (heffect.held hfrom), done trivial⟩
  · rw [if_neg hhit] at hcond
    have hmiss := Bool.eq_false_iff.mpr hhit
    refine ⟨fun ns u hb => ?_, fun ns u hb => ?_⟩
    · obtain ⟨hnot, rfl⟩ := planStatements_idle hmiss hcond hb
      refine ⟨fun _ => rfl, fun happlied => ?_⟩
      rw [hnot] at happlied
      cases happlied
    · obtain ⟨-, rfl⟩ := planStatements_idle hmiss hcond hb
      exact ⟨planSpec.admits_refl ht, done trivial⟩

theorem planSpec_rules : GuardRules planSpec appliesWhole RowRead where
  later _ _ _ hr h := h.later hr
  loaded := loadItems_attests
  applied _ _ _ _ h := applyPlan_attests h

theorem catalogCall_attests (call : CatalogCall) (s : Catalog) :
    Attests planSpec appliesWhole (fun _ _ => True) call.code s := by
  cases call with
  | edit productId change => exact editProduct_attests productId change s
  | guard upgradeItem planOf groups equalize =>
    exact bind (planSpec_rules.runPricingGuard _ _ _ _ s) fun _ _ _ _ => done trivial
  | approveRaise upgradeItem payload => exact planSpec_rules.approvePricingRaise upgradeItem payload s

/-! ## Runs -/

/-- Where every batch finds its item, or no landed plan, each plan that a run applies is applied whole or not at all. -/
theorem plans_all_or_nothing {s : Catalog} (hs : NoneBack s) {w : World Catalog CatalogSite DomainError Unit}
    (h : Runs CatalogCall.code planWhole ⟨s, []⟩ w) {i : Nat} {row : ItemRow} {plan : PricePlan}
    {context : PlanContext} (hcall : w.site i = some (.applyPlan row plan context))
    (hc : planWhole (.applyPlan row plan context) w.db) {results : List Nat} {t : Catalog}
    (hbatch : batch (planStatements row plan context) 0 w.db = .ok (results, t)) :
    AllOrNothing row plan context w.db t results :=
  Runs.asserts (S := planSpec) (P := appliesWhole) (fun call t _ => (catalogCall_attests call t).asserts) hs h hcall hc
    results t hbatch

def raisable : Catalog where
  products := .ok [{ id := 1, name := "Cards", status := .active }]
  items := .ok [{ id := 1, productId := 1, name := "Card", priceMinor := 100 }]
  channelPrices := .ok [{ id := 1, sellableItemId := 1, channel := .usdt, priceMinor := 100 },
    { id := 2, sellableItemId := 1, channel := .alipay, priceMinor := 110 }]
  listings := .ok [{ id := 1, sellableItemId := 1, priceMinor := 90 }]
  audits := []
  media := []
  referenced := []
  removed := []

theorem raisable_noneBack : NoneBack raisable := fun _ _ => not_mem_nil

def raisedRow : ItemRow := itemRow raisable { id := 1, productId := 1, name := "Card", priceMinor := 100 }

def raisePlan : PricePlan := ⟨120, some 130, some 90, some 110⟩

def raiseContext : PlanContext := ⟨100, 110, none, "pricing_guard.auto_raise"⟩

def raiseGuard : CatalogCall := .guard 0 (fun _ => some (raisePlan, raiseContext)) [] fun _ _ => none

/-- The guard has loaded the item and is about to apply the plan. -/
theorem plans_all_or_nothing_raise : ∃ (w : World Catalog CatalogSite DomainError Unit) (results : List Nat) (t : Catalog),
    Runs CatalogCall.code planWhole ⟨raisable, []⟩ w ∧ w.site 0 = some (.applyPlan raisedRow raisePlan raiseContext) ∧
      planApplied results = true ∧ AllOrNothing raisedRow raisePlan raiseContext w.db t results := by
  obtain ⟨w, hw⟩ : ∃ w, w = World.exec CatalogCall.code planWhole ⟨raisable, []⟩ [.start raiseGuard, .run 0] := ⟨_, rfl⟩
  have hruns : Runs CatalogCall.code planWhole ⟨raisable, []⟩ w := by
    rw [hw]
    exact World.exec_runs _ _ _ _
  have hsite : w.site 0 = some (.applyPlan raisedRow raisePlan raiseContext) := by
    rw [hw]
    decide
  have hc : planWhole (.applyPlan raisedRow raisePlan raiseContext) w.db := by
    rw [hw]
    decide
  have happlied : (batch (planStatements raisedRow raisePlan raiseContext) 0 w.db).toOption.map (planApplied ·.1) =
      some true := by
    rw [hw]
    decide
  cases hbatch : batch (planStatements raisedRow raisePlan raiseContext) 0 w.db with
  | error a =>
    rw [hbatch] at happlied
    cases happlied
  | ok r =>
    rw [hbatch] at happlied
    exact ⟨w, r.1, r.2, hruns, hsite, Option.some.inj happlied,
      plans_all_or_nothing raisable_noneBack hruns hsite hc hbatch⟩

/-- Two passes have loaded the item, and the second finds the raise landed by the first: it answers false and adds
an audit row and a product revision. -/
theorem plan_half_applied : ∃ (w : World Catalog CatalogSite DomainError Unit) (results : List Nat) (t : Catalog),
    Runs CatalogCall.code editsBump ⟨raisable, []⟩ w ∧ w.site 1 = some (.applyPlan raisedRow raisePlan raiseContext) ∧
      batch (planStatements raisedRow raisePlan raiseContext) 0 w.db = .ok (results, t) ∧
      ¬ AllOrNothing raisedRow raisePlan raiseContext w.db t results := by
  obtain ⟨w, hw⟩ : ∃ w, w = World.exec CatalogCall.code editsBump ⟨raisable, []⟩
      [.start raiseGuard, .start raiseGuard, .run 0, .run 1, .run 0] := ⟨_, rfl⟩
  have hsite : w.site 1 = some (.applyPlan raisedRow raisePlan raiseContext) := by
    rw [hw]
    decide
  have hhalf : (batch (planStatements raisedRow raisePlan raiseContext) 0 w.db).toOption.map
      (fun r => (planApplied r.1, r.2.audits.length)) = some (false, 2) ∧ w.db.audits.length = 1 := by
    rw [hw]
    decide
  cases hbatch : batch (planStatements raisedRow raisePlan raiseContext) 0 w.db with
  | error a =>
    rw [hbatch] at hhalf
    cases hhalf.1
  | ok r =>
    rw [hbatch] at hhalf
    obtain ⟨hnot, hadded⟩ := Prod.mk.inj (Option.some.inj hhalf.1)
    refine ⟨w, r.1, r.2, ?_, hsite, hbatch, fun hwhole => ?_⟩
    · rw [hw]
      exact World.exec_runs _ _ _ _
    · have hsame := hwhole.1 hnot
      rw [hsame, hhalf.2] at hadded
      cases hadded

end Gmshop
