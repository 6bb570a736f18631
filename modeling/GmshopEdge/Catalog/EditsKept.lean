import GmshopEdge.Catalog.PlanBatch

/-!
# Edits of a product are not lost

An edit claims the revision that its caller loaded and writes a batch that does not mention the revision again.
Between the two, another caller may load the claimed revision with the old contents, and the pricing guard may
write prices; neither is noticed.

`editsAlone` is the condition that this does not happen: a batch runs while its claim is the product's revision and
nobody has loaded it, and a plan is applied to the revision that the guard loaded. Then every write finds the
product as its caller loaded it. Who claims a revision owns it (the tokens): as long as it is the product's, no
other call writes to the product.
-/

namespace Gmshop

open List Sql Stmt Prog Table Attests

/-! ## The property -/

def planActs (s : Catalog) (row : ItemRow) (plan : PricePlan) : Bool := planHits s row || planLanded s row plan

/-- The product is as its caller loaded it, and a product is published with the items that were checked. -/
def findsLoaded (x : CatalogSite) (s : Catalog) : Prop :=
  match x with
  | .write productId _ loaded => view s productId = loaded
  | .saveItems productId _ loaded _ => view s productId = loaded
  | .publish productId _ loaded checked => view s productId = loaded ∧ enabledItems s productId = checked
  | .applyPlan row plan _ => planActs s row plan = true → view s row.productId = row.loaded
  | _ => True

/-! ## The conditions -/

def revisionOf (s : Catalog) (productId : Id) : Nat := ((s.products.get? productId).map (·.revision)).getD 0

def lastLoaded (s : Catalog) (productId : Id) : Nat := ((s.products.get? productId).map (·.loadedAt)).getD 0

def ownItems (x : CatalogSite) (s : Catalog) : Prop :=
  match x with
  | .saveItems productId _ _ written => ∀ i ∈ written, ∀ j ∈ s.items.rows, j.id = i.id → j.productId = productId
  | _ => True

def claimHolds (s : Catalog) (productId claimed : Nat) : Prop :=
  revisionOf s productId = claimed ∧ lastLoaded s productId < claimed

/-- A batch runs while its claim holds, and a plan's on the revision that was loaded for it. -/
def editsAlone (x : CatalogSite) (s : Catalog) : Prop :=
  ownItems x s ∧ match x with
    | .write productId claimed _ => claimHolds s productId claimed
    | .saveItems productId claimed _ _ => claimHolds s productId claimed
    | .publish productId claimed _ _ => claimHolds s productId claimed
    | .applyPlan row plan _ => planActs s row plan = true → revisionOf s row.productId = row.loadedRevision
    | _ => True

instance (x : CatalogSite) (s : Catalog) : Decidable (ownItems x s) := by
  casesm CatalogSite <;> dsimp only [ownItems] <;> infer_instance

instance (s : Catalog) (productId claimed : Nat) : Decidable (claimHolds s productId claimed) := by
  unfold claimHolds
  infer_instance

instance (x : CatalogSite) (s : Catalog) : Decidable (editsAlone x s) := by
  casesm CatalogSite <;> dsimp only [editsAlone] <;> infer_instance

/-! ## What a caller can rely on -/

/-- A revision that is not loaded yet belongs to the call that claimed it; a product with a loaded or an own revision
stays as it is, as long as the revision does. -/
structure ProductsMove (own : Set (Id × Nat)) (s t : Catalog) : Prop where
  revision : ∀ p, revisionOf s p ≤ revisionOf t p
  loaded : ∀ p, lastLoaded s p ≤ lastLoaded t p
  view : ∀ p, revisionOf t p = revisionOf s p → (revisionOf s p ≤ lastLoaded s p ∨ (p, revisionOf s p) ∈ own) →
    view t p = view s p

theorem ProductsMove.refl (own : Set (Id × Nat)) (s : Catalog) : ProductsMove own s s where
  revision _ := Nat.le_refl _
  loaded _ := Nat.le_refl _
  view _ _ _ := rfl

variable {s t u : Catalog} {id productId q : Id} {c claimed expected revision : Nat} {ids removed : List Id}
  {sts : List (Stmt Catalog)} {ns : List Nat} {table : Table CatalogItem} {g : CatalogItem → CatalogItem}
  {loaded : ProductView} {p : CatalogProduct → Bool} {α : Type} {row : ItemRow}

theorem ProductsMove.trans {own : Set (Id × Nat)} (h : ProductsMove own s t) (h' : ProductsMove own t u) :
    ProductsMove own s u where
  revision p := (h.revision p).trans (h'.revision p)
  loaded p := (h.loaded p).trans (h'.loaded p)
  view p hrev hheld := by
    have hst := h.revision p
    have htu := h'.revision p
    have hmid : revisionOf t p = revisionOf s p := by omega
    refine (h'.view p (hrev.trans hmid.symm) ?_).trans (h.view p hmid hheld)
    rw [hmid]
    exact hheld.imp_left fun hle => hle.trans (h.loaded p)

def LoadedInTime (s : Catalog) : Prop := ∀ p, lastLoaded s p ≤ revisionOf s p

def editSpec : Spec Catalog CatalogSite (Id × Nat) where
  inv := LoadedInTime
  cond := editsAlone
  guar _ _ := True
  rely := ProductsMove
  issued s := { c | c.2 ≤ revisionOf s c.1 }
  guar_refl _ := trivial
  rely_refl := ProductsMove.refl
  rely_trans _ _ _ _ h h' := h.trans h'
  issued_mono _ _ h _ hc := hc.trans (h.revision _)

/-! ## Batches that touch one product -/

structure OnlyProduct (productId : Id) (s t : Catalog) : Prop where
  revision : ∀ q, revisionOf t q = revisionOf s q
  loaded : ∀ q, lastLoaded t q = lastLoaded s q
  view : ∀ q, q ≠ productId → view t q = view s q

theorem OnlyProduct.refl (productId : Id) (s : Catalog) : OnlyProduct productId s s :=
  ⟨fun _ => rfl, fun _ => rfl, fun _ _ => rfl⟩

theorem OnlyProduct.trans (h : OnlyProduct productId s t) (h' : OnlyProduct productId t u) :
    OnlyProduct productId s u where
  revision q := (h'.revision q).trans (h.revision q)
  loaded q := (h'.loaded q).trans (h.loaded q)
  view q hq := (h'.view q hq).trans (h.view q hq)

variable {productId : Nat}

theorem OnlyProduct.admits (h : OnlyProduct productId s t) (hs : LoadedInTime s)
    (hclaim : claimHolds s productId claimed) :
    editSpec.Admits {(productId, claimed)} {(productId, claimed)} s t where
  inv q := by
    rw [h.revision, h.loaded]
    exact hs q
  guar := trivial
  rely own _ hdisj := by
    refine ⟨fun q => (h.revision q).ge, fun q => (h.loaded q).ge, fun q _ hheld => ?_⟩
    by_cases hq : q = productId
    · subst hq
      obtain ⟨hrev, hlt⟩ := hclaim
      rw [hrev] at hheld
      rcases hheld with hle | hown
      · omega
      · exact absurd rfl (Set.disjoint_left.mp hdisj hown)
    · exact h.view q hq
  owned := Set.subset_union_left

theorem view_congr (hproduct : t.products.get? q = s.products.get? q) (hitems : itemsOf t q = itemsOf s q) :
    view t q = view s q := by
  unfold view
  rw [hproduct, hitems]

def OwnIds (productId : Id) (ids : List Id) (s : Catalog) : Prop :=
  ∀ i ∈ s.items.rows, i.id ∈ ids → i.productId = productId

def EditsOnly (productId : Id) (ids : List Id) (s t : Catalog) : Prop :=
  OwnIds productId ids s → OnlyProduct productId s t ∧ OwnIds productId ids t

theorem editsOnly_batch (hsts : ∀ st ∈ sts, Within (EditsOnly productId ids) st)
    (h : batch sts c s = .ok (ns, t)) : EditsOnly productId ids s t := by
  refine batch_within (fun u hu => ⟨OnlyProduct.refl _ u, hu⟩) (fun a b c hab hbc ha => ?_) hsts h
  obtain ⟨honly, hb⟩ := hab ha
  obtain ⟨honly', hc⟩ := hbc hb
  exact ⟨honly.trans honly', hc⟩

theorem elsewhere_edits {st : Stmt Catalog} (h : Keeps (fun s : Catalog => (s.products, s.items)) st) :
    Within (EditsOnly productId ids) st := by
  intro c s n t hst hown
  have hkept := h c s n t hst
  obtain ⟨hproducts, hitems⟩ := Prod.mk.inj hkept
  refine ⟨⟨fun q => ?_, fun q => ?_, fun q _ => ?_⟩, ?_⟩
  · unfold revisionOf
    rw [hproducts]
  · unfold lastLoaded
    rw [hproducts]
  · exact view_congr (by rw [hproducts]) (by unfold itemsOf; rw [hitems])
  · unfold OwnIds
    rw [hitems]
    exact hown

theorem audit_edits (action : String) (targetId : Id) : Within (EditsOnly productId ids) (audit action targetId) := by
  refine elsewhere_edits fun c s n t h => ?_
  obtain ⟨-, rfl⟩ := Prod.mk.inj (Except.ok.inj h)
  rfl

theorem setProduct_edits {f : CatalogProduct → CatalogProduct}
    (hf : ∀ p, (f p).id = p.id ∧ (f p).revision = p.revision ∧ (f p).loadedAt = p.loadedAt) :
    Within (EditsOnly productId ids) (setProduct productId f) := by
  intro c s n t h hown
  obtain ⟨-, table, hrows, rfl⟩ := update_ok h
  have hget : ∀ q, table.get? q = (s.products.get? q).map fun p => if (p.id == productId) = true then f p else p := by
    refine get?_map hrows fun p => ?_
    split
    · exact (hf p).1
    · rfl
  refine ⟨⟨fun q => ?_, fun q => ?_, fun q hq => view_congr ?_ rfl⟩, hown⟩
  · show ((table.get? q).map (·.revision)).getD 0 = ((s.products.get? q).map (·.revision)).getD 0
    rw [hget, Option.map_map]
    congr 2
    funext p
    rw [Function.comp_apply, apply_ite CatalogProduct.revision, (hf p).2.1, ite_self]
  · show ((table.get? q).map (·.loadedAt)).getD 0 = ((s.products.get? q).map (·.loadedAt)).getD 0
    rw [hget, Option.map_map]
    congr 2
    funext p
    rw [Function.comp_apply, apply_ite CatalogProduct.loadedAt, (hf p).2.2, ite_self]
  · show table.get? q = s.products.get? q
    rw [hget]
    cases hp : s.products.get? q with
    | none => rfl
    | some p =>
      have hid : p.id = q := get?_key hp
      rw [Option.map_some, if_neg (by rw [hid, beq_iff_eq]; exact hq)]

theorem noteChange_edits : Within (EditsOnly productId ids) (noteChange productId) :=
  setProduct_edits fun _ => ⟨rfl, rfl, rfl⟩

theorem items_edits (hothers : ∀ q, q ≠ productId → (table.rows.filter fun i => i.productId == q) = itemsOf s q)
    (hown : OwnIds productId ids { s with items := table }) :
    OnlyProduct productId s { s with items := table } ∧ OwnIds productId ids { s with items := table } :=
  ⟨⟨fun _ => rfl, fun _ => rfl, fun q hq => view_congr rfl (hothers q hq)⟩, hown⟩

theorem itemsOf_map {rows : List CatalogItem} (hg : ∀ i, (g i).productId = i.productId)
    (hsame : ∀ i ∈ rows, i.productId = q → g i = i) :
    ((rows.map g).filter fun i => i.productId == q) = rows.filter fun i => i.productId == q := by
  have hcomp : ((fun i : CatalogItem => i.productId == q) ∘ g) = fun i => i.productId == q := by
    funext i
    rw [Function.comp_apply, hg i]
  rw [filter_map, hcomp]
  refine (map_congr_left fun i hi => ?_).trans (map_id _)
  obtain ⟨hrow, hof⟩ := mem_filter.mp hi
  exact hsame i hrow (beq_iff_eq.mp hof)

theorem mapItem_edits (hid : id ∈ ids)
    (hg : ∀ i, (g i).id = i.id ∧ (g i).productId = i.productId ∧ (i.id ≠ id → g i = i))
    (hrows : table.rows = s.items.rows.map g) (hown : OwnIds productId ids s) :
    OnlyProduct productId s { s with items := table } ∧ OwnIds productId ids { s with items := table } := by
  refine items_edits (fun q hq => ?_) fun i hi hmem => ?_
  · rw [hrows]
    refine itemsOf_map (fun i => (hg i).2.1) fun i hi hof => (hg i).2.2 fun heq => hq ?_
    rw [← hof]
    exact hown i hi (heq ▸ hid)
  · rw [hrows] at hi
    obtain ⟨j, hj, rfl⟩ := mem_map.mp hi
    rw [(hg j).1] at hmem
    rw [(hg j).2.1]
    exact hown j hj hmem

theorem updateItem_edits (hid : id ∈ ids) {f : CatalogItem → CatalogItem}
    (hf : ∀ i, (f i).id = i.id ∧ (f i).productId = i.productId) :
    Within (EditsOnly productId ids) (update Catalog.itemsT (fun _ i => i.id == id) fun _ i => f i) := by
  intro c s n t h hown
  obtain ⟨-, table, hrows, rfl⟩ := update_ok h
  refine mapItem_edits hid (fun i => ?_) hrows hown
  split
  · next heq => exact ⟨(hf i).1, (hf i).2, fun hne => absurd (beq_iff_eq.mp heq) hne⟩
  · exact ⟨rfl, rfl, fun _ => rfl⟩

theorem upsertItem_edits {row : CatalogItem} (hid : row.id ∈ ids) (hof : row.productId = productId) :
    Within (EditsOnly productId ids) (upsertItem row) := by
  intro c s n t h hown
  obtain ⟨table, rfl, ⟨-, hrows⟩ | ⟨-, hrows⟩⟩ := upsertItem_ok h
  · refine mapItem_edits hid (fun i => ⟨over_id row i, ?_, fun hne => if_neg hne⟩) hrows hown
    unfold CatalogItem.over
    split <;> rfl
  · refine items_edits (fun q hq => ?_) fun i hi hmem => ?_
    · have hother : (row.productId == q) = false := by
        rw [hof]
        exact beq_false_of_ne (Ne.symm hq)
      rw [hrows, filter_append, filter_cons_of_neg (by rw [hother]; decide), filter_nil, append_nil]
      rfl
    · have hi : i ∈ table.rows := hi
      rw [hrows] at hi
      rcases mem_append.mp hi with hi | hi
      · exact hown i hi hmem
      · rw [mem_singleton.mp hi]
        exact hof

theorem deleteItem_edits (hid : id ∈ ids) (h : batch (deleteItem id) c s = .ok (ns, t)) :
    EditsOnly productId ids s t := by
  intro hown
  rcases deleteItem_ok h with ⟨-, rfl⟩ | ⟨-, channels, listings, items, -, -, hitems, rfl⟩
  · exact ⟨OnlyProduct.refl _ _, hown⟩
  refine ⟨⟨fun _ => rfl, fun _ => rfl, fun q hq => view_congr rfl ?_⟩, fun i hi hmem => ?_⟩
  · show items.rows.filter _ = s.items.rows.filter _
    rw [hitems, filter_filter]
    refine filter_congr fun i hi => ?_
    by_cases hof : i.productId = q
    · have hne : i.id ≠ id := fun heq => hq (hof.symm.trans (hown i hi (heq ▸ hid)))
      rw [bne_iff_ne.mpr hne, Bool.and_true]
    · rw [beq_false_of_ne hof, Bool.false_and]
  · have hi : i ∈ items.rows := hi
    rw [hitems] at hi
    exact hown i (mem_filter.mp hi).1 hmem

theorem disableItem_edits (hid : id ∈ ids) :
    Within (EditsOnly productId ids) (disableItem id) := updateItem_edits hid fun _ => ⟨rfl, rfl⟩

theorem deletions_edits (hids : removed ⊆ ids)
    (h : batch (removed.flatMap fun id => deleteItem id ++ [disableItem id]) c s = .ok (ns, t)) :
    EditsOnly productId ids s t := by
  induction removed generalizing c s ns with
  | nil =>
    rw [segment_nil h]
    exact fun hown => ⟨OnlyProduct.refl _ _, hown⟩
  | cons id removed ih =>
    have hid : id ∈ ids := hids mem_cons_self
    obtain ⟨ns1, s1, ns2, hfirst, hrest, -⟩ := batch_append_ok h
    obtain ⟨ms1, s2, ms2, hdelete, hdisable, -⟩ := batch_append_ok hfirst
    obtain ⟨n, hdisable, -⟩ := batch_single_ok hdisable
    intro hown
    obtain ⟨hdeleted, hown⟩ := deleteItem_edits hid hdelete hown
    obtain ⟨hdisabled, hown⟩ := disableItem_edits hid _ _ _ _ hdisable hown
    obtain ⟨hothers, hown⟩ := ih (fun x hx => hids (mem_cons_of_mem _ hx)) hrest hown
    exact ⟨hdeleted.trans (hdisabled.trans hothers), hown⟩

theorem sellableItems_edits {written : List CatalogItem} (hof : ∀ i ∈ written, i.productId = productId)
    (hwritten : ∀ i ∈ written, ∀ j ∈ s.items.rows, j.id = i.id → j.productId = productId)
    (hremoved : ∀ i ∈ s.items.rows, i.id ∈ removed → i.productId = productId)
    (h : batch (sellableItemsStatements productId written removed) c s = .ok (ns, t)) :
    OnlyProduct productId s t := by
  let ids := written.map (·.id) ++ removed
  have hown : OwnIds productId ids s := by
    intro i hi hmem
    rcases mem_append.mp hmem with hmem | hmem
    · obtain ⟨row, hrow, hid⟩ := mem_map.mp hmem
      exact hwritten row hrow i hi hid.symm
    · exact hremoved i hi hmem
  unfold sellableItemsStatements at h
  obtain ⟨ns1, s1, ns2, hfirst, hlast, -⟩ := batch_append_ok h
  obtain ⟨ms1, s2, ms2, hwrite, hdelete, -⟩ := batch_append_ok hfirst
  have hupserts : EditsOnly productId ids s s2 := by
    refine editsOnly_batch (fun st hst => ?_) hwrite
    rcases mem_cons.mp hst with rfl | hst
    · exact setProduct_edits fun _ => ⟨rfl, rfl, rfl⟩
    · obtain ⟨row, hrow, rfl⟩ := mem_map.mp hst
      exact upsertItem_edits (mem_append_left _ (mem_map_of_mem hrow)) (hof row hrow)
  have hlast : EditsOnly productId ids s1 t := by
    refine editsOnly_batch (fun st hst => ?_) hlast
    rcases mem_cons.mp hst with rfl | hst
    · exact audit_edits _ _
    · rw [mem_singleton.mp hst]
      exact noteChange_edits
  obtain ⟨honly, hown⟩ := hupserts hown
  obtain ⟨honly', hown⟩ := deletions_edits (subset_append_right _ _) hdelete hown
  exact honly.trans (honly'.trans (hlast hown).1)

/-! ## Claims and loads -/

def ViewLoaded (productId revision : Nat) (loaded : ProductView) (t : Catalog) : Prop :=
  ∃ u, revisionOf u productId = revision ∧ revision ≤ lastLoaded u productId ∧ view u productId = loaded ∧
    ProductsMove ∅ u t

theorem ViewLoaded.later (h : ViewLoaded productId revision loaded s) (hr : ProductsMove ∅ s t) :
    ViewLoaded productId revision loaded t :=
  let ⟨u, hrev, hload, hview, hu⟩ := h
  ⟨u, hrev, hload, hview, hu.trans hr⟩

theorem ViewLoaded.now (h : ViewLoaded productId revision loaded t) (hrev : revisionOf t productId = revision) :
    view t productId = loaded := by
  obtain ⟨u, hu, hload, hview, hmove⟩ := h
  rw [← hview]
  refine hmove.view productId (hrev.trans hu.symm) (Or.inl ?_)
  rw [hu]
  exact hload

theorem mapProducts_view {g : CatalogProduct → CatalogProduct}
    (hg : ∀ p, { g p with revision := 0, loadedAt := 0 } = { p with revision := 0, loadedAt := 0 })
    {table : Table CatalogProduct} (hrows : table.rows = s.products.rows.map g) (q : Id) :
    table.get? q = (s.products.get? q).map g ∧ view { s with products := table } q = view s q := by
  have hget : table.get? q = (s.products.get? q).map g := by
    refine get?_map hrows (fun p => ?_) q
    have hid := congrArg CatalogProduct.id (hg p)
    exact hid
  refine ⟨hget, ?_⟩
  unfold view
  congr 1
  show (table.get? q).map _ = _
  rw [hget, Option.map_map]
  congr 1
  funext p
  exact hg p

/-- A claim finds the expected revision and moves to the next; nothing else changes. -/
structure Claim (productId expected : Nat) (s t : Catalog) : Prop where
  before : revisionOf s productId = expected
  after : revisionOf t productId = expected + 1
  others : ∀ q, q ≠ productId → revisionOf t q = revisionOf s q
  loaded : ∀ q, lastLoaded t q = lastLoaded s q
  view : ∀ q, view t q = view s q

theorem claim_ok {n : Nat}
    (h : update Catalog.productsT (fun _ p => p.id == productId && p.revision == expected)
      (fun _ p => { p with revision := p.revision + 1 }) c s = .ok (n, t)) :
    (n = 0 ∧ t = s) ∨ (n = 1 ∧ Claim productId expected s t) := by
  rcases update_key_cases (q := fun p => p.revision == expected) (fun _ => rfl) h with
    ⟨hn, -, ht⟩ | ⟨hn, p, table, hp, hrev, hrows, rfl⟩
  · exact Or.inl ⟨hn, ht⟩
  have hp : s.products.get? productId = some p := hp
  have hid : p.id = productId := get?_key hp
  have hrows : table.rows = s.products.rows.map fun r =>
    if r.id = productId then { r with revision := r.revision + 1 } else r := hrows
  have hview := mapProducts_view (fun r => by split <;> rfl) hrows
  refine Or.inr ⟨hn, ?_, ?_, fun q hq => ?_, fun q => ?_, fun q => (hview q).2⟩
  · unfold revisionOf
    rw [hp]
    exact beq_iff_eq.mp hrev
  · show ((table.get? productId).map (·.revision)).getD 0 = expected + 1
    rw [(hview productId).1, hp, Option.map_some, if_pos hid, ← beq_iff_eq.mp hrev]
    rfl
  · show ((table.get? q).map (·.revision)).getD 0 = revisionOf s q
    unfold revisionOf
    rw [(hview q).1]
    cases hr : s.products.get? q with
    | none => rfl
    | some r =>
      have hrq : r.id ≠ productId := fun heq => hq ((get?_key hr).symm.trans heq)
      rw [Option.map_some, if_neg hrq]
  · show ((table.get? q).map (·.loadedAt)).getD 0 = lastLoaded s q
    unfold lastLoaded
    rw [(hview q).1, Option.map_map]
    congr 2
    funext r
    rw [Function.comp_apply]
    split <;> rfl

theorem Claim.admits (h : Claim productId expected s t) (hs : LoadedInTime s) :
    editSpec.Admits ∅ {(productId, expected + 1)} s t where
  inv q := by
    have hle := hs q
    rw [h.loaded]
    by_cases hq : q = productId
    · rw [hq] at hle ⊢
      rw [h.before] at hle
      rw [h.after]
      omega
    · rw [h.others q hq]
      exact hle
  guar := trivial
  rely own _ _ := by
    refine ⟨fun q => ?_, fun q => (h.loaded q).ge, fun q _ _ => h.view q⟩
    by_cases hq : q = productId
    · rw [hq, h.before, h.after]
      omega
    · rw [h.others q hq]
  owned := by
    rintro x rfl
    refine Or.inr ⟨h.after.ge, fun hold => ?_⟩
    have hold : expected + 1 ≤ revisionOf s productId := hold
    rw [h.before] at hold
    omega

theorem noteLoaded_view (p : CatalogProduct → Bool) (s : Catalog) (q : Id) :
    revisionOf (noteLoaded p s) q = revisionOf s q ∧ view (noteLoaded p s) q = view s q ∧
      lastLoaded (noteLoaded p s) q = if (s.products.get? q).any p then revisionOf s q else lastLoaded s q := by
  have hclash : ∀ a b : CatalogProduct, Row.clash (if p a then { a with loadedAt := a.revision } else a)
      (if p b then { b with loadedAt := b.revision } else b) = Row.clash a b := by
    intro a b
    show (_ == _) = (a.id == b.id)
    split <;> split <;> rfl
  obtain ⟨table, hrows, hupdate⟩ := update_total (T := Catalog.productsT) (p := fun _ => p)
    (f := fun _ r => { r with loadedAt := r.revision }) (s := s) hclash (fun _ => rfl) 0
  have hnote : noteLoaded p s = { s with products := table } := by
    unfold noteLoaded
    rw [hupdate]
    rfl
  have hview := mapProducts_view (fun r => by split <;> rfl) hrows q
  rw [hnote]
  refine ⟨?_, hview.2, ?_⟩
  · show ((table.get? q).map (·.revision)).getD 0 = revisionOf s q
    unfold revisionOf
    rw [hview.1, Option.map_map]
    congr 2
    funext r
    rw [Function.comp_apply]
    split <;> rfl
  · show ((table.get? q).map (·.loadedAt)).getD 0 = _
    unfold revisionOf lastLoaded
    rw [hview.1]
    cases s.products.get? q with
    | none => rfl
    | some r =>
      rw [Option.map_some, Option.any_some]
      split <;> rfl

theorem noteLoaded_admits (hs : LoadedInTime s) : editSpec.Admits ∅ ∅ s (noteLoaded p s) where
  inv q := by
    obtain ⟨hrev, -, hload⟩ := noteLoaded_view p s q
    rw [hrev, hload]
    split
    · exact Nat.le_refl _
    · exact hs q
  guar := trivial
  rely own _ _ := by
    refine ⟨fun q => (noteLoaded_view p s q).1.ge, fun q => ?_, fun q _ _ => (noteLoaded_view p s q).2.1⟩
    rw [(noteLoaded_view p s q).2.2]
    split
    · exact hs q
    · exact Nat.le_refl _
  owned := Set.empty_subset _

theorem noteLoaded_loaded {product : CatalogProduct} (hproduct : s.products.get? product.id = some product)
    (hp : p product = true) :
    ViewLoaded product.id product.revision (view s product.id) (noteLoaded p s) := by
  obtain ⟨hrev, hview, hload⟩ := noteLoaded_view p s product.id
  have hrevision : revisionOf s product.id = product.revision := by
    unfold revisionOf
    rw [hproduct]
    rfl
  refine ⟨noteLoaded p s, hrev.trans hrevision, ?_, hview, ProductsMove.refl _ _⟩
  rw [hload, hproduct, Option.any_some, if_pos hp, hrevision]

/-! ## Edits -/

theorem ViewLoaded.reached (h : ViewLoaded productId revision loaded t) : revision ≤ revisionOf t productId := by
  obtain ⟨u, hu, -, -, hmove⟩ := h
  rw [← hu]
  exact hmove.revision productId

theorem ViewLoaded.earlier (h : ViewLoaded productId revision loaded t) (hr : ProductsMove ∅ t u)
    (hrev : revisionOf u productId = revision) : view t productId = loaded :=
  h.now (Nat.le_antisymm (hrev ▸ hr.revision productId) h.reached)

section Edits

variable {productId expected : Nat} {loaded : ProductView} {s : Catalog}

theorem claimRevision_asserts {k : Nat → CatalogProg Nat} (h : ViewLoaded productId expected loaded s)
    (hk : revisionOf s productId = expected → ∀ t, revisionOf t productId = expected + 1 →
      view t productId = loaded → Asserts editSpec findsLoaded anyEnd (k (expected + 1)) {(productId, expected + 1)} t) :
    Asserts editSpec findsLoaded anyEnd (claimRevision productId expected >>= k) ∅ s := by
  refine Asserts.bind ?_
  unfold claimRevision
  refine Asserts.commit fun t hr ht _ _ => ⟨trivial, fun _ => trivial, fun ns u hb => ?_⟩
  obtain ⟨n, hu, rfl⟩ := batch_single_ok hb
  rcases claim_ok hu with ⟨rfl, rfl⟩ | ⟨rfl, hclaim⟩
  · exact ⟨∅, editSpec.admits_refl ht, trivial⟩
  · refine ⟨_, hclaim.admits ht, ?_⟩
    have hs : revisionOf s productId = expected :=
      Nat.le_antisymm (hclaim.before ▸ hr.revision productId) h.reached
    exact hk hs u hclaim.after ((hclaim.view productId).trans ((h.later hr).now hclaim.before))

theorem owner_view (hrev : revisionOf t productId = claimed) (hr : ProductsMove {(productId, claimed)} t u)
    (hclaim : revisionOf u productId = claimed) : view u productId = view t productId := by
  refine hr.view productId (hclaim.trans hrev.symm) (Or.inr ?_)
  rw [hrev]
  exact Set.mem_singleton _

theorem ownBatch_asserts {x : CatalogSite} {k : List Nat → CatalogProg Nat}
    (hrev : revisionOf u productId = claimed) (hview : view u productId = loaded)
    (hus : ProductsMove {(productId, claimed)} u s)
    (h : ∀ t, ProductsMove {(productId, claimed)} s t → editsAlone x t → claimHolds t productId claimed ∧
      (view t productId = loaded → findsLoaded x t ∧ ∀ ns v, batch sts 0 t = .ok (ns, v) → OnlyProduct productId t v))
    (hk : ∀ ns, ∃ n, k ns = .done n) :
    Asserts editSpec findsLoaded anyEnd (commit x sts >>= k) {(productId, claimed)} s := by
  refine Asserts.commit fun t hr ht _ hc => ?_
  obtain ⟨hclaim, hstep⟩ := h t hr hc
  obtain ⟨hP, hbatch⟩ := hstep ((owner_view hrev (hus.trans hr) hclaim.1).trans hview)
  refine ⟨hP, fun _ => trivial, fun ns u hb => ⟨_, (hbatch ns u hb).admits ht hclaim, ?_⟩⟩
  obtain ⟨n, hn⟩ := hk ns
  rw [hn]
  trivial

theorem editsOnly_product (hsts : ∀ st ∈ sts, Within (EditsOnly productId ids) st)
    (hown : OwnIds productId ids t) (hb : batch sts 0 t = .ok (ns, u)) : OnlyProduct productId t u :=
  (editsOnly_batch hsts hb hown).1

theorem ownIds_nil (productId : Id) (t : Catalog) : OwnIds productId [] t := fun _ _ h => absurd h not_mem_nil

theorem queryLoaded {g : Catalog → α} {k : α → CatalogProg Nat} (h : ViewLoaded productId expected loaded s)
    (hk : ∀ t, ProductsMove ∅ s t → ViewLoaded productId expected loaded t →
      Asserts editSpec findsLoaded anyEnd (k (g t)) ∅ t) :
    Asserts editSpec findsLoaded anyEnd (query g >>= k) ∅ s :=
  Asserts.query fun t hr _ => hk t hr (h.later hr)

theorem throw_asserts (e : DomainError) :
    Asserts editSpec findsLoaded anyEnd (Prog.throw e : CatalogProg α) ∅ s := trivial

theorem saveProductContent_asserts (data : ProductContent) (h : ViewLoaded productId expected loaded s) :
    Asserts editSpec findsLoaded anyEnd (saveProductContent productId expected loaded data) ∅ s := by
  refine queryLoaded h fun t _ h => ?_
  split
  · exact throw_asserts _
  have hclaim : ∀ u, ViewLoaded productId expected loaded u → Asserts editSpec findsLoaded anyEnd (do
      let revision ← claimRevision productId expected
      let _ ← commit (.write productId revision loaded) (contentStatements productId data)
      .done revision) ∅ u := by
    intro u h
    refine claimRevision_asserts h fun _ v hrev hview => ?_
    refine ownBatch_asserts hrev hview (ProductsMove.refl _ _)
      (fun t _ hc => ⟨hc.2, fun hloaded => ⟨hloaded, fun ns w hb => ?_⟩⟩) fun _ => ⟨_, rfl⟩
    refine editsOnly_product (fun st hst => ?_) (ownIds_nil _ t) hb
    unfold contentStatements at hst
    refine each_three ?_ ?_ ?_ _ hst
    · exact setProduct_edits fun _ => ⟨rfl, rfl, rfl⟩
    · exact audit_edits _ _
    · exact noteChange_edits
  refine Asserts.bind (Asserts.query fun u hr _ => ?_)
  have h := h.later hr
  split
  · exact hclaim u h
  · refine Asserts.query fun v hr' _ => ?_
    split
    · trivial
    · exact hclaim v (h.later hr')

theorem writtenItems_product {existing : List CatalogItem} {fresh : Nat → Id} {items : List ItemInput} :
    ∀ i ∈ writtenItems productId existing fresh items, i.productId = productId := by
  intro i hi
  unfold writtenItems at hi
  obtain ⟨n, -, rfl⟩ := mem_mapIdx.mp hi
  rfl

theorem saveProductSellableItems_asserts (fresh : Nat → Id) (items : List ItemInput)
    (h : ViewLoaded productId expected loaded s) :
    Asserts editSpec findsLoaded anyEnd (saveProductSellableItems productId expected loaded fresh items) ∅ s := by
  refine queryLoaded h fun t _ h => ?_
  split
  · exact throw_asserts _
  refine queryLoaded h fun t _ h => ?_
  split
  · exact throw_asserts _
  split
  · exact throw_asserts _
  refine queryLoaded h fun t _ h => Asserts.bind ?_
  unfold orThrow
  split
  rotate_left
  · trivial
  refine claimRevision_asserts h fun _ u hrev hview => Asserts.query fun v hr _ => ?_
  refine ownBatch_asserts hrev hview hr
    (fun t hr' hc => ⟨hc.2, fun hloaded => ⟨hloaded, fun ns w hb => ?_⟩⟩) fun _ => ⟨_, rfl⟩
  obtain ⟨hown, hclaim⟩ := hc
  -- the revision has been the claimed one all along, and the items are those that were read
  have hmid : revisionOf v productId = expected + 1 := by
    have hle := hr.revision productId
    have hle' := hr'.revision productId
    rw [hclaim.1] at hle'
    omega
  have hitems : itemsOf t productId = itemsOf v productId := congrArg ProductView.items (owner_view hmid hr' hclaim.1)
  refine sellableItems_edits writtenItems_product hown (fun i hi hmem => ?_) hb
  obtain ⟨j, hj, hid⟩ := mem_map.mp (mem_filter.mp hmem).1
  rw [← hitems] at hj
  obtain ⟨hjt, hof⟩ := mem_filter.mp hj
  rw [show i = j from eq_of_key hi hjt hid.symm]
  exact beq_iff_eq.mp hof

theorem publishProduct_asserts (blockersOf : CatalogItem → List String) (publish : Bool)
    (h : ViewLoaded productId expected loaded s) :
    Asserts editSpec findsLoaded anyEnd (publishProduct productId expected loaded blockersOf publish) ∅ s := by
  refine queryLoaded h fun t _ h => ?_
  split
  · exact throw_asserts _
  split
  · exact throw_asserts _
  refine queryLoaded h fun q _ hq => queryLoaded hq fun t hqt h => ?_
  dsimp only
  split
  · exact throw_asserts _
  refine claimRevision_asserts h fun hexpected u hrev hview => ?_
  -- the items were checked at the revision that was claimed
  have hchecked : enabledItems q productId = loaded.items.filter (·.enabled) := by
    have hloaded := hq.earlier hqt hexpected
    rw [← hloaded]
    rfl
  refine ownBatch_asserts hrev hview (ProductsMove.refl _ _)
    (fun t _ hc => ⟨hc.2, fun hloaded => ⟨⟨hloaded, ?_⟩, fun ns w hb => ?_⟩⟩) fun _ => ⟨_, rfl⟩
  · rw [hchecked, ← hloaded]
    rfl
  · refine editsOnly_product (fun st hst => ?_) (ownIds_nil _ t) hb
    unfold publishStatements at hst
    refine each_three ?_ ?_ ?_ _ hst
    · exact setProduct_edits fun _ => ⟨rfl, rfl, rfl⟩
    · exact audit_edits _ _
    · exact noteChange_edits

theorem setProductSaleDisabled_asserts (disabled : Bool) (h : ViewLoaded productId expected loaded s) :
    Asserts editSpec findsLoaded anyEnd (setProductSaleDisabled productId expected loaded disabled) ∅ s := by
  refine queryLoaded h fun t _ h => ?_
  split
  · exact throw_asserts _
  split
  · exact throw_asserts _
  refine claimRevision_asserts h fun _ u hrev hview => ?_
  refine ownBatch_asserts hrev hview (ProductsMove.refl _ _)
    (fun t _ hc => ⟨hc.2, fun hloaded => ⟨hloaded, fun ns w hb => ?_⟩⟩) fun _ => ⟨_, rfl⟩
  refine editsOnly_product (fun st hst => ?_) (ownIds_nil _ t) hb
  refine each_three ?_ ?_ ?_ _ hst
  · exact setProduct_edits fun _ => ⟨rfl, rfl, rfl⟩
  · exact audit_edits _ _
  · exact noteChange_edits

theorem setSellableItemSaleDisabled_asserts (sellableItemId : Id) (disabled : Bool)
    (h : ViewLoaded productId expected loaded s) : Asserts editSpec findsLoaded anyEnd
      (setSellableItemSaleDisabled productId expected loaded sellableItemId disabled) ∅ s := by
  refine queryLoaded h fun t _ h => ?_
  split
  · exact throw_asserts _
  next status hstatus =>
  split
  · exact throw_asserts _
  refine claimRevision_asserts h fun hexpected u hrev hview => ?_
  -- the item was the product's at the revision that was claimed
  obtain ⟨item, hitem, -⟩ := Option.bind_eq_some_iff.mp hstatus
  obtain ⟨hget, hof⟩ := Option.filter_eq_some_iff.mp hitem
  have hloadedItem : item ∈ loaded.items := by
    rw [← h.now hexpected]
    exact mem_filter.mpr ⟨get?_mem hget, hof⟩
  refine ownBatch_asserts hrev hview (ProductsMove.refl _ _)
    (fun v _ hc => ⟨hc.2, fun hloaded => ⟨hloaded, fun ns w hb => ?_⟩⟩) fun _ => ⟨_, rfl⟩
  have hown : OwnIds productId [sellableItemId] v := by
    intro i hi hmem
    rw [← hloaded] at hloadedItem
    obtain ⟨hrow, hof⟩ := mem_filter.mp hloadedItem
    have hid : item.id = sellableItemId := get?_key hget
    rw [show i = item from eq_of_key hi hrow ((mem_singleton.mp hmem).trans hid.symm)]
    exact beq_iff_eq.mp hof
  refine editsOnly_product (fun st hst => ?_) hown hb
  refine each_three ?_ ?_ ?_ _ hst
  · exact updateItem_edits mem_cons_self fun _ => ⟨rfl, rfl⟩
  · exact audit_edits _ _
  · exact noteChange_edits

end Edits

theorem loadedEdit_asserts (productId : Id) (change : CatalogProduct → ProductEdit) (t : Catalog) :
    Asserts editSpec findsLoaded anyEnd (match t.products.get? productId with
      | none => throw productNotFound
      | some product => ((change product).handler productId product.revision (view t productId)).void) ∅
      (noteLoaded (fun p => p.id == productId) t) := by
  cases hproduct : t.products.get? productId with
  | none => trivial
  | some product =>
    have hid : product.id = productId := get?_key hproduct
    subst hid
    have hloaded := noteLoaded_loaded (p := fun p => p.id == product.id) hproduct (beq_self_eq_true _)
    refine Asserts.bind (Asserts.mono (fun r o u _ => ?_) (Q := anyEnd) ?_)
    · cases r <;> trivial
    · cases change product with
      | content data => exact saveProductContent_asserts data hloaded
      | items fresh inputs => exact saveProductSellableItems_asserts fresh inputs hloaded
      | publish blockersOf on => exact publishProduct_asserts blockersOf on hloaded
      | saleDisabled off => exact setProductSaleDisabled_asserts off hloaded
      | itemSaleDisabled id disabled => exact setSellableItemSaleDisabled_asserts id disabled hloaded

theorem editProduct_asserts (productId : Id) (change : CatalogProduct → ProductEdit) (s : Catalog) :
    Asserts editSpec findsLoaded anyEnd (editProduct productId change) ∅ s := by
  refine Asserts.act fun t _ ht _ _ => ⟨trivial, ∅, noteLoaded_admits ht, ?_⟩
  exact loadedEdit_asserts productId change t

/-! ## The guard -/

/-- The row's product was loaded with its revision, and has the item as the row says. -/
structure RowLoaded (row : ItemRow) (t : Catalog) : Prop where
  view : ViewLoaded row.productId row.loadedRevision row.loaded t
  product : row.loaded.product.isSome
  item : ∃ i ∈ row.loaded.items, i.id = row.id ∧ i.version = row.version ∧ i.priceMinor = row.priceMinor

theorem RowLoaded.later (h : RowLoaded row s) (hr : ProductsMove ∅ s t) : RowLoaded row t :=
  ⟨h.view.later hr, h.product, h.item⟩

section Plan

variable {row : ItemRow} {plan : PricePlan} {context : PlanContext} {s t : Catalog}

/-- A batch that finds its item makes one revision of its product, and leaves the others alone. -/
structure PlanStep (row : ItemRow) (s t : Catalog) : Prop where
  revision : revisionOf t row.productId = revisionOf s row.productId + 1
  others : ∀ q, q ≠ row.productId → revisionOf t q = revisionOf s q ∧ view t q = view s q
  loaded : ∀ q, lastLoaded t q = lastLoaded s q

theorem PlanEffect.step (h : PlanEffect row plan context s t) (hproduct : (s.products.get? row.productId).isSome)
    (hitem : ∀ i ∈ s.items.rows, i.id = row.id → i.productId = row.productId) : PlanStep row s t := by
  have hget : ∀ q, t.products.get? q = (s.products.get? q).map row.bumped := by
    refine get?_map h.products fun p => ?_
    show (row.bumped p).id = p.id
    unfold ItemRow.bumped
    split <;> rfl
  have hother : ∀ q, q ≠ row.productId → t.products.get? q = s.products.get? q := by
    intro q hq
    rw [hget]
    cases hp : s.products.get? q with
    | none => rfl
    | some p =>
      have hid : p.id = q := get?_key hp
      rw [Option.map_some, ItemRow.bumped, if_neg (by rw [hid]; exact hq)]
  refine ⟨?_, fun q hq => ⟨?_, view_congr (hother q hq) ?_⟩, fun q => ?_⟩
  · obtain ⟨p, hp⟩ := Option.isSome_iff_exists.mp hproduct
    have hid : p.id = row.productId := get?_key hp
    unfold revisionOf
    rw [hget, hp, Option.map_some, ItemRow.bumped, if_pos hid]
    rfl
  · unfold revisionOf
    rw [hother q hq]
  · unfold itemsOf
    rw [h.items]
    refine itemsOf_map (fun i => ?_) fun i hi hof => priced_other fun heq => hq ?_
    · unfold ItemRow.priced
      split <;> rfl
    · rw [← hof]
      exact hitem i hi heq
  · unfold lastLoaded
    rw [hget, Option.map_map]
    congr 2
    funext p
    rw [Function.comp_apply, ItemRow.bumped]
    split <;> rfl

theorem PlanStep.admits (h : PlanStep row s t) (hs : LoadedInTime s) : editSpec.Admits ∅ ∅ s t where
  inv q := by
    have hle := hs q
    rw [h.loaded]
    by_cases hq : q = row.productId
    · rw [hq] at hle ⊢
      rw [h.revision]
      omega
    · rw [(h.others q hq).1]
      exact hle
  guar := trivial
  rely own _ _ := by
    refine ⟨fun q => ?_, fun q => (h.loaded q).ge, fun q hrev _ => ?_⟩
    · by_cases hq : q = row.productId
      · rw [hq, h.revision]
        omega
      · rw [(h.others q hq).1]
    · by_cases hq : q = row.productId
      · rw [hq, h.revision] at hrev
        omega
      · exact (h.others q hq).2
  owned := Set.empty_subset _

end Plan

theorem applyPlan_finds {plan : PricePlan} {context : PlanContext} (hrow : RowLoaded row s) :
    Attests editSpec findsLoaded (fun _ _ => True) (applyPlan row plan context) s := by
  refine commit fun t hr ht hc => ?_
  have hrow := hrow.later hr
  have hcond : planActs t row plan = true → revisionOf t row.productId = row.loadedRevision := hc.2
  refine ⟨fun hacts => hrow.view.now (hcond hacts), fun ns u hb => ?_⟩
  by_cases hacts : planActs t row plan = true
  · have hview := hrow.view.now (hcond hacts)
    obtain ⟨i, hi, hid, hversion, hprice⟩ := hrow.item
    rw [← hview] at hi
    obtain ⟨hmem, hof⟩ := mem_filter.mp hi
    have hget : t.items.get? row.id = some i := hid ▸ mem_get? hmem
    obtain ⟨-, heffect⟩ := planStatements_hit (planHits_iff.mpr ⟨i, hget, hversion, hprice⟩) hb
    have hproduct : (t.products.get? row.productId).isSome := by
      have hsome := hrow.product
      rw [← hview] at hsome
      exact Option.isSome_map.symm.trans hsome
    refine ⟨(heffect.step hproduct fun j hj hjid => ?_).admits ht, done trivial⟩
    rw [show j = i from eq_of_key hj hmem (hjid.trans hid.symm)]
    exact beq_iff_eq.mp hof
  · rw [Bool.not_eq_true, planActs, Bool.or_eq_false_iff] at hacts
    obtain ⟨-, rfl⟩ := planStatements_idle hacts.1 hacts.2 hb
    exact ⟨editSpec.admits_refl ht, done trivial⟩

theorem loadItems_finds (upgradeItem : Id) (onlyItemId : Option Id) (s : Catalog) :
    Attests editSpec findsLoaded (fun rows t => ∀ row ∈ rows, RowLoaded row t) (loadItems upgradeItem onlyItemId) s := by
  refine act fun t _ ht _ => ⟨trivial, noteLoaded_admits ht, done fun row hrow => ?_⟩
  obtain ⟨item, hitem, rfl⟩ := mem_map.mp hrow
  obtain ⟨hmem, hguarded⟩ := mem_filter.mp hitem
  obtain ⟨product, hproduct⟩ : ∃ product, t.products.get? item.productId = some product := by
    unfold guarded at hguarded
    simp only [Bool.and_eq_true, Option.any_eq_true] at hguarded
    obtain ⟨product, hproduct, -⟩ := hguarded.1.1.2
    exact ⟨product, hproduct⟩
  have hid : product.id = item.productId := get?_key hproduct
  have hrevision : (itemRow t item).loadedRevision = product.revision := by
    show ((t.products.get? item.productId).map (·.revision)).getD 0 = _
    rw [hproduct]
    rfl
  refine ⟨?_, ?_, item, mem_filter.mpr ⟨hmem, beq_self_eq_true _⟩, rfl, rfl, rfl⟩
  · rw [hrevision, show (itemRow t item).productId = product.id from hid.symm,
      show (itemRow t item).loaded = view t product.id by rw [hid]; rfl]
    refine noteLoaded_loaded (by rw [hid]; exact hproduct) ?_
    rw [any_eq_true]
    exact ⟨itemRow t item, hrow, beq_iff_eq.mpr hid.symm⟩
  · show ((t.products.get? item.productId).map _).isSome
    rw [hproduct]
    rfl

theorem editSpec_rules : GuardRules editSpec findsLoaded RowLoaded where
  later _ _ _ hr h := h.later hr
  loaded := loadItems_finds
  applied _ _ _ _ h := applyPlan_finds h

theorem catalogCall_asserts (call : CatalogCall) (s : Catalog) : Asserts editSpec findsLoaded anyEnd call.code ∅ s := by
  cases call with
  | edit productId change => exact editProduct_asserts productId change s
  | guard upgradeItem planOf groups equalize =>
    have hguard : Attests editSpec findsLoaded (fun _ _ => True)
        (CatalogCall.guard upgradeItem planOf groups equalize).code s :=
      bind (editSpec_rules.runPricingGuard _ _ _ _ s) fun _ _ _ _ => done trivial
    exact hguard.asserts
  | approveRaise upgradeItem payload => exact (editSpec_rules.approvePricingRaise upgradeItem payload s).asserts

/-! ## Runs -/

/-- Where batches run while their claims hold, each write of a run finds its product as its caller loaded it. -/
theorem edits_find_loaded {s : Catalog} (hs : LoadedInTime s) {w : World Catalog CatalogSite DomainError Unit}
    (h : Runs CatalogCall.code editsAlone ⟨s, []⟩ w) {i : Nat} {x : CatalogSite} (hcall : w.site i = some x)
    (hc : editsAlone x w.db) : findsLoaded x w.db :=
  Runs.asserts (S := editSpec) (P := findsLoaded) (fun call t _ => catalogCall_asserts call t) hs h hcall hc

instance (x : CatalogSite) (s : Catalog) : Decidable (findsLoaded x s) := by
  casesm CatalogSite <;> dsimp only [findsLoaded] <;> infer_instance

def stocked : Catalog where
  products := .of [{ id := 1, name := "Cards", status := .active }]
  items := .of [{ id := 1, productId := 1, name := "Card", priceMinor := 100 }]
  channelPrices := .of []
  listings := .of []
  audits := []
  media := []
  referenced := []
  removed := []

theorem stocked_inTime : LoadedInTime stocked := by
  intro p
  unfold lastLoaded
  cases hp : stocked.products.get? p with
  | none => exact Nat.zero_le _
  | some product =>
    rw [mem_singleton.mp (get?_mem hp)]
    exact Nat.zero_le _

def submitted (name : String) (priceMinor : Nat) : ItemInput where
  id := some 1
  name := name
  listPriceMinor := none
  priceMinor := priceMinor
  costMinor := none
  currency := "CNY"
  currencyDecimals := 2
  minimumQuantity := 1
  maximumQuantity := 1
  maximumPerCustomer := none
  deliveryType := .stock
  delivery := {}
  enabled := true
  saleDisabled := false
  reminderCycleDays := none

def submit (name : String) (priceMinor : Nat) : CatalogCall := .edit 1 fun _ => .items (· + 10) [submitted name priceMinor]

/-- A new price is about to be written. -/
theorem edits_find_loaded_price : ∃ (w : World Catalog CatalogSite DomainError Unit) (x : CatalogSite),
    Runs CatalogCall.code editsAlone ⟨stocked, []⟩ w ∧ w.site 0 = some x ∧
      x = .saveItems 1 2 (view stocked 1) (writtenItems 1 (itemsOf stocked 1) (· + 10) [submitted "Card" 120]) ∧
      findsLoaded x w.db := by
  obtain ⟨w, hw⟩ : ∃ w, w = World.exec CatalogCall.code editsAlone ⟨stocked, []⟩
      (oneByOne [submit "Card" 120] 6) := ⟨_, rfl⟩
  have hruns : Runs CatalogCall.code editsAlone ⟨stocked, []⟩ w := by
    rw [hw]
    exact World.exec_runs _ _ _ _
  have hsite : w.site 0 = some (.saveItems 1 2 (view stocked 1)
      (writtenItems 1 (itemsOf stocked 1) (· + 10) [submitted "Card" 120])) := by
    rw [hw]
    decide
  refine ⟨w, _, hruns, hsite, rfl, edits_find_loaded stocked_inTime hruns hsite ?_⟩
  rw [hw]
  decide

/-- The second editor loads the revision that the first has claimed and not yet written, and is about to write the
old price over the new one. -/
theorem edit_overwritten : ∃ (w : World Catalog CatalogSite DomainError Unit) (x : CatalogSite),
    Runs CatalogCall.code ownItems ⟨stocked, []⟩ w ∧ w.site 1 = some x ∧ ¬ findsLoaded x w.db := by
  obtain ⟨w, hw⟩ : ∃ w, w = World.exec CatalogCall.code ownItems ⟨stocked, []⟩
      ([Move.start (submit "Card" 120), Move.start (submit "Gift card" 100)] ++ replicate 5 (Move.run 0) ++ [Move.run 1] ++
        replicate 2 (Move.run 0) ++ replicate 5 (Move.run 1)) := ⟨_, rfl⟩
  have hstale : (w.site 1).any (fun x => decide ¬ findsLoaded x w.db) = true := by
    rw [hw]
    decide
  obtain ⟨x, hx, hnot⟩ := (Option.any_eq_true _ _).mp hstale
  refine ⟨w, x, ?_, hx, of_decide_eq_true hnot⟩
  rw [hw]
  exact World.exec_runs _ _ _ _

end Gmshop
