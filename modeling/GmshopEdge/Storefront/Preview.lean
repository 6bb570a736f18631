import GmshopEdge.Lib.Lists
import GmshopEdge.Promotions.Ties
import GmshopEdge.Storefront.Allocation

/-!
# The preview of a coupon

`previewStoreCoupon` and the checkout price the same lines under other ids. The totals agree. The lines of a
promotion get the same cents whatever the new ids are exactly where no tie of the remainders is cut
(`preview_equals_checkout_iff`).
-/

namespace Gmshop

open List Apportion Except

/-! ## Other ids -/

def PricingLine.under (l : PricingLine) (id : String) : PricingLine := { l with orderItemId := id }

def PlacedLine.under (ids : Nat → String) (l : PlacedLine) : PlacedLine := (l.1.under (ids l.2), l.2)

def relabel (ids : Nat → String) (lines : List PricingLine) : List PricingLine :=
  lines.zipIdx.map fun l => l.1.under (ids l.2)

section

variable (ids : Nat → String) (lines : List PricingLine)
include ids lines

theorem zipIdx_relabel : (relabel ids lines).zipIdx = lines.zipIdx.map (PlacedLine.under ids) := by
  apply ext_getElem
  · simp [relabel]
  · intro i h _
    simp [relabel, PlacedLine.under]

theorem relabel_subtotals : (relabel ids lines).map (·.subtotal) = lines.map (·.subtotal) := by
  have hfst : lines.zipIdx.map Prod.fst = lines := zipIdx_map_fst 0 lines
  calc (relabel ids lines).map (·.subtotal) = (lines.zipIdx.map Prod.fst).map (·.subtotal) := by
        rw [relabel, map_map, map_map]
        rfl
    _ = lines.map (·.subtotal) := by rw [hfst]

theorem relabel_items : (relabel ids lines).map (·.sellableItem) = lines.map (·.sellableItem) := by
  have hfst : lines.zipIdx.map Prod.fst = lines := zipIdx_map_fst 0 lines
  calc (relabel ids lines).map (·.sellableItem) = (lines.zipIdx.map Prod.fst).map (·.sellableItem) := by
        rw [relabel, map_map, map_map]
        rfl
    _ = lines.map (·.sellableItem) := by rw [hfst]

end

variable {item : CartItem} {id : String} {f : StoreFacts} {l : PricingLine} {lines : List PricingLine}
  {items : List CartItem} {coupon : StoreCoupon} {tagged : List String → String → Bool}
  {eligible : List PlacedLine} {p : StorePricing} {collate : String → String → Ordering}
  {budgets budgets' : List (String × Nat)} {n total : Nat} {rows : List PromotionRow}
  {purpose : PromotionPurpose} {pricing : PromotionPricing} {asked : CouponPurpose} {ids : Nat → String}

theorem storeLine_under (h : storeLine f item id = .ok l) (id' : String) :
    storeLine f item id' = .ok (l.under id') := by
  unfold storeLine at h ⊢
  cases hitem : f.sellableItem item.sellableItemId with
  | error e => simp [hitem, Bind.bind, Except.bind] at h
  | ok s =>
    simp only [hitem, Bind.bind, Except.bind, Except.ok.injEq] at h ⊢
    rw [← h]
    rfl

theorem checkout_lines (h : (items.mapM fun item => storeLine f item item.sellableItemId) = .ok lines)
    (fresh : Nat → String) :
    (items.zipIdx.mapM fun item => storeLine f item.1 (fresh item.2)) = .ok (relabel fresh lines) := by
  obtain ⟨hlength, hget⟩ := forall₂_iff_get.mp (Lists.mapM_ok_iff.mp h)
  refine Lists.mapM_ok_iff.mpr (forall₂_iff_get.mpr ⟨by simp [relabel, hlength], fun i hi hi' => ?_⟩)
  have hline := hget i (by simpa using hi) (by simpa [relabel] using hi')
  have hunder := storeLine_under hline (fresh i)
  simpa [relabel] using hunder

theorem singleCurrency_relabel (ids : Nat → String) (lines : List PricingLine) :
    assertSingleCurrency (relabel ids lines) = assertSingleCurrency lines := by
  have h := congrArg (map fun s : StoreItem => (s.currency, s.currencyDecimals)) (relabel_items ids lines)
  rw [map_map, map_map] at h
  have h : (relabel ids lines).map (fun l => (l.sellableItem.currency, l.sellableItem.currencyDecimals)) =
      lines.map fun l => (l.sellableItem.currency, l.sellableItem.currencyDecimals) := h
  rw [assertSingleCurrency, assertSingleCurrency, h]

theorem couponLines_relabel (ids : Nat → String) (lines : List PricingLine) :
    couponLines tagged coupon (relabel ids lines) =
      (couponLines tagged coupon lines).map (map (PlacedLine.under ids)) := by
  unfold couponLines
  cases coupon.scope with
  | error e => rfl
  | ok scope =>
    simp only [Bind.bind, Except.bind]
    unfold eligibleLines
    rw [zipIdx_relabel]
    have hfilter : (lines.zipIdx.map (PlacedLine.under ids)).filter
        (fun l => scope.covers tagged l.1.sellableItem.productId) =
        (lines.zipIdx.filter fun l => scope.covers tagged l.1.sellableItem.productId).map (PlacedLine.under ids) := by
      rw [filter_map]
      rfl
    have hlist : ∀ xs : List PlacedLine, (xs.map (PlacedLine.under ids)).filter (fun l => l.1.priceSource == .list) =
        (xs.filter fun l => l.1.priceSource == .list).map (PlacedLine.under ids) := by
      intro xs
      rw [filter_map]
      rfl
    dsimp only
    rw [hfilter, isEmpty_map]
    by_cases hall : (scope.productIds.isEmpty && scope.tagNames.isEmpty) = true
    · simp only [if_pos hall, hlist, Except.map]
    · by_cases hnone : (lines.zipIdx.filter fun l => scope.covers tagged l.1.sellableItem.productId).isEmpty = true
      · simp only [if_neg hall, if_pos hnone, Except.map]
      · simp only [if_neg hall, if_neg hnone, hlist, Except.map]

/-! ## Standard coupons -/

theorem byPlan_under (collate : String → String → Ordering) (ids : Nat → String) (lines : List PlacedLine) :
    byPlan collate (lines.map (PlacedLine.under ids)) = (byPlan collate lines).map (PlacedLine.under ids) :=
  (map_insertionSort _ _ (PlacedLine.under ids) lines fun _ _ _ _ => Iff.rfl).symm

theorem lineDiscounts_under (total subtotal : Nat) (ids : Nat → String) (lines : List PlacedLine) :
    lineDiscounts total subtotal (lines.map (PlacedLine.under ids)) = lineDiscounts total subtotal lines := by
  cases lines with
  | nil => rfl
  | cons first rest =>
    rw [map_cons, lineDiscounts_cons, lineDiscounts_cons]
    simp only [map_cons, map_map]
    rfl

theorem eligibleSubtotal_under (ids : Nat → String) (lines : List PlacedLine) :
    eligibleSubtotal (lines.map (PlacedLine.under ids)) = eligibleSubtotal lines := by
  rw [eligibleSubtotal, map_map]
  rfl

theorem allocateDiscount_under (collate : String → String → Ordering) (coupon : Option StoreCoupon) (subtotal : Nat)
    (ids : Nat → String) (eligible : List PlacedLine) :
    allocateDiscount collate coupon subtotal (eligible.map (PlacedLine.under ids)) =
      allocateDiscount collate coupon subtotal eligible := by
  cases coupon with
  | none => rfl
  | some coupon =>
    cases eligible with
    | nil => rfl
    | cons first rest =>
      have hsub := eligibleSubtotal_under ids (first :: rest)
      have hplan := byPlan_under collate ids (first :: rest)
      simp only [allocateDiscount, hsub, hplan, lineDiscounts_under]
      rfl

theorem priceStandardCoupon_relabel (ids : Nat → String)
    (h : priceStandardCoupon collate (some coupon) lines eligible = .ok p) :
    (∃ p', priceStandardCoupon collate (some coupon) (relabel ids lines) (eligible.map (PlacedLine.under ids)) = .ok p' ∧
      p'.discountMinor = p.discountMinor ∧ p'.discounts = p.discounts) ∧
    p.lines = (lines.zip p.discounts).map fun l => ⟨l.1.orderItemId, l.2, 0⟩ := by
  unfold priceStandardCoupon at h ⊢
  rw [relabel_subtotals, allocateDiscount_under]
  cases halloc : allocateDiscount collate (some coupon) (lines.map (·.subtotal)).sum eligible with
  | error e => simp [halloc, Bind.bind, Except.bind] at h
  | ok r =>
    simp only [halloc, Bind.bind, Except.bind] at h ⊢
    obtain rfl := Except.ok.inj h
    refine ⟨⟨_, rfl, rfl, ?_⟩, ?_⟩
    · dsimp only
      rw [zipIdx_relabel, map_map]
      rfl
    · apply ext_getElem
      · simp
      · intro i h _
        simp

/-! ## Promotions -/

theorem allocations_strip (total : Nat) (h : budgets.map (·.2) = budgets'.map (·.2)) :
    (allocations total budgets).map (fun r => (r.place, r.amount, r.remainder)) =
      (allocations total budgets').map fun r => (r.place, r.amount, r.remainder) := by
  have hlength : budgets.length = budgets'.length := by
    have := congrArg length h
    rwa [length_map, length_map] at this
  have hget : ∀ i (hi : i < budgets.length) (hi' : i < budgets'.length), budgets[i].2 = budgets'[i].2 := by
    intro i hi hi'
    have := getElem_of_eq h (i := i) (by simpa using hi)
    rwa [getElem_map, getElem_map] at this
  apply ext_getElem
  · simp [allocations, hlength]
  · intro i hi hi'
    have hi : i < budgets.length := by simpa [allocations] using hi
    have hi' : i < budgets'.length := by simpa [allocations] using hi'
    simp [allocations, h, hget i hi hi']

theorem allocated_clear (hplaces : (rows.map (·.place)).Nodup)
    (hclear : CutClear (total - (rows.map (·.amount)).sum) (rows.map (·.remainder))) :
    (allocated collate total rows).map (·.amount) = (rows.map fun r => (r.place, r.amount, r.remainder)).map fun r =>
      if ((rows.map fun r => (r.place, r.amount, r.remainder)).countP fun x => decide (r.2.2 ≤ x.2.2)) ≤
        total - ((rows.map fun r => (r.place, r.amount, r.remainder)).map (·.2.1)).sum then r.2.1 + 1 else r.2.1 := by
  rw [allocated, map_map, map_map, map_map]
  refine map_congr_left fun r hr => ?_
  have hiff := mem_favoured_iff collate hplaces hclear hr
  have hsum : ((fun x : Nat × Nat × Nat => x.2.1) ∘ fun r : PromotionRow => (r.place, r.amount, r.remainder)) =
      PromotionRow.amount := rfl
  simp only [Function.comp_apply, countP_map, hsum]
  by_cases hfav : r.place ∈ favoured collate rows (total - (rows.map (·.amount)).sum)
  · rw [if_pos (contains_iff_mem.mpr hfav)]
    exact (if_pos (hiff.mp hfav)).symm
  · rw [if_neg fun h => hfav (contains_iff_mem.mp h)]
    exact (if_neg fun h => hfav (hiff.mpr h)).symm

theorem amounts_clear (h : budgets.map (·.2) = budgets'.map (·.2))
    (hclear : CutClear (total - ((allocations total budgets).map (·.amount)).sum)
      ((allocations total budgets).map (·.remainder))) :
    (allocated collate total (allocations total budgets)).map (·.amount) =
      (allocated collate total (allocations total budgets')).map (·.amount) := by
  have hstrip := allocations_strip total h
  have hamounts := congrArg (map fun r : Nat × Nat × Nat => r.2.1) hstrip
  have hremainders := congrArg (map fun r : Nat × Nat × Nat => r.2.2) hstrip
  rw [map_map, map_map] at hamounts hremainders
  have hamounts : (allocations total budgets).map (·.amount) = (allocations total budgets').map (·.amount) := hamounts
  have hremainders : (allocations total budgets).map (·.remainder) = (allocations total budgets').map (·.remainder) :=
    hremainders
  rw [allocated_clear allocations_places hclear, hstrip]
  rw [hamounts, hremainders] at hclear
  exact (allocated_clear allocations_places hclear).symm

theorem cut_row (collate : String → String → Ordering) {k : Nat} (hplaces : (rows.map (·.place)).Nodup)
    (h : ¬ CutClear k (rows.map (·.remainder))) :
    ∃ row ∈ rows, row.place ∉ favoured collate rows k ∧
      rows.countP (fun x => decide (row.remainder < x.remainder)) < k := by
  unfold CutClear at h
  push Not at h
  obtain ⟨ρ, -, habove, hatLeast⟩ := h
  rw [countP_map] at habove hatLeast
  have hperm := perm_insertionSort (PromotionRow.before collate) rows
  have hcount : rows.countP (fun x => (favoured collate rows k).contains x.place) ≤ k := by
    have hle : k ≤ (rows.insertionSort (PromotionRow.before collate)).length := by
      rw [hperm.length_eq]
      exact Nat.le_of_lt (Nat.lt_of_lt_of_le hatLeast countP_le_length)
    rw [← hperm.countP_eq, favoured]
    exact (countP_take ((hperm.map _).nodup_iff.mpr hplaces) hle).le
  -- not all rows from the cut value on get one
  have hex : ∃ row ∈ rows, ρ ≤ row.remainder ∧ row.place ∉ favoured collate rows k := by
    by_contra hall
    push Not at hall
    have hle : rows.countP ((fun x => decide (ρ ≤ x)) ∘ (·.remainder)) ≤
        rows.countP (fun x => (favoured collate rows k).contains x.place) := by
      refine countP_mono_left fun row hrow hge => ?_
      exact contains_iff_mem.mpr (hall row hrow (of_decide_eq_true hge))
    omega
  obtain ⟨row, hrow, hge, hnot⟩ := hex
  refine ⟨row, hrow, hnot, Nat.lt_of_le_of_lt (countP_mono_left fun x _ hx => ?_) habove⟩
  have hx := of_decide_eq_true hx
  exact decide_eq_true (Nat.lt_of_le_of_lt hge hx)

theorem amounts_differ {rows' : List PromotionRow}
    (hstrip : rows.map (fun r => (r.place, r.amount, r.remainder)) = rows'.map fun r => (r.place, r.amount, r.remainder))
    (hplaces : (rows'.map (·.place)).Nodup) {row row' : PromotionRow} (hrow : row ∈ rows)
    (hrow' : row' ∈ rows') (hplace : row'.place = row.place)
    (hnot : row.place ∉ favoured collate rows (total - (rows.map (·.amount)).sum))
    (hfav : row'.place ∈ favoured collate rows' (total - (rows'.map (·.amount)).sum)) :
    (allocated collate total rows).map (·.amount) ≠ (allocated collate total rows').map (·.amount) := by
  intro heq
  obtain ⟨i, hi, rfl⟩ := getElem_of_mem hrow
  have hi' : i < rows'.length := by
    have := congrArg length hstrip
    rw [length_map, length_map] at this
    omega
  have hsame := getElem_of_eq hstrip (i := i) (by simpa using hi)
  simp only [getElem_map, Prod.mk.injEq] at hsame
  obtain rfl : row' = rows'[i] :=
    inj_on_of_nodup_map hplaces hrow' (getElem_mem hi') (hplace.trans hsame.1)
  have hamount := getElem_of_eq heq (i := i) (by simpa [allocated] using hi)
  simp only [allocated, getElem_map] at hamount
  rw [if_neg (fun h => hnot (contains_iff_mem.mp h)), if_pos (contains_iff_mem.mpr hfav)] at hamount
  have hone : rows[i].amount = rows'[i].amount + 1 := hamount
  omega

theorem promotion_lines {items : List PromotionItem} (h : pricePromotion collate purpose items = .ok pricing) :
    pricing.lines.map (·.id) = items.map (·.id) ∧
      pricing.lines.map (·.discountMinor) = (allocated collate pricing.discountMinor (allocations pricing.discountMinor
        (items.map fun item => (item.id, item.budget purpose)))).map (·.amount) := by
  obtain ⟨-, -, hlines, -⟩ := pricePromotion_allocates h
  obtain ⟨total, -, -, rfl⟩ := pricePromotion_ok h
  refine ⟨?_, by rw [map_map]; rfl⟩
  have hids := hlines.imp fun _ _ h => h.1
  have heq : List.Forall₂ (· = ·) (map PromotionLine.id _) (items.map PromotionItem.id) :=
    forall₂_map_left_iff.mpr (forall₂_map_right_iff.mpr hids)
  exact forall₂_eq_eq_eq ▸ heq

theorem pricePromotion_terms {items items' : List PromotionItem} (hterms : items'.map (·.terms) = items.map (·.terms))
    (h : pricePromotion collate purpose items = .ok pricing) :
    ∃ pricing', pricePromotion collate purpose items' = .ok pricing' ∧
      pricing'.discountMinor = pricing.discountMinor ∧ pricing'.rewardMinor = pricing.rewardMinor := by
  have hconfigured : items'.all PromotionItem.configured = items.all PromotionItem.configured := by
    have hall : ∀ xs : List PromotionItem, xs.all PromotionItem.configured =
        (xs.map (·.terms)).all fun t => (PromotionItem.mk "" t.1 t.2.1 t.2.2).configured := by
      intro xs
      rw [all_map]
      rfl
    rw [hall, hall, hterms]
  have hok : ∃ pricing', pricePromotion collate purpose items' = .ok pricing' := by
    unfold pricePromotion at h ⊢
    rw [hconfigured]
    split at h
    · rename_i hc
      exact ⟨_, if_pos hc⟩
    · cases h
  obtain ⟨pricing', hpricing'⟩ := hok
  have htotal := (pricePromotion_allocates h).2.2.2.2 collate items' pricing' (by rw [hterms]) hpricing'
  refine ⟨pricing', hpricing', htotal, ?_⟩
  obtain ⟨_, -, -, rfl⟩ := pricePromotion_ok h
  obtain ⟨_, -, -, rfl⟩ := pricePromotion_ok hpricing'
  obtain rfl := htotal
  rfl

theorem promotionDiscount_lines (h : (pricing.lines.map (·.id)).Nodup)
    (hids : pricing.lines.map (·.id) = lines.map (·.orderItemId)) :
    lines.map (promotionDiscount pricing) = pricing.lines.map fun p => (p.discountMinor : Int) := by
  have hlookup : ∀ p ∈ pricing.lines, ((pricing.lines.find? fun q => q.id == p.id).map fun q =>
      (q.discountMinor : Int)).getD 0 = p.discountMinor := by
    intro p hp
    cases hfind : pricing.lines.find? fun q => q.id == p.id with
    | none =>
      have := find?_eq_none.mp hfind p hp
      simp at this
    | some q =>
      have hq : q.id = p.id := by simpa using find?_some hfind
      obtain rfl := inj_on_of_nodup_map h (mem_of_find?_eq_some hfind) hp hq
      rfl
  calc lines.map (promotionDiscount pricing)
      = (lines.map (·.orderItemId)).map fun id => ((pricing.lines.find? fun q => q.id == id).map fun q =>
          (q.discountMinor : Int)).getD 0 := by
        rw [map_map]
        rfl
    _ = pricing.lines.map fun p => ((pricing.lines.find? fun q => q.id == p.id).map fun q =>
          (q.discountMinor : Int)).getD 0 := by
        rw [← hids, map_map]
        rfl
    _ = _ := map_congr_left hlookup

theorem zip_subset_iff {α β : Type} {table : List (α × β)} (htable : (table.map Prod.fst).Nodup) {keys : List α}
    {xs ys : List β} (hx : xs.length = keys.length) (hy : ys.length = keys.length) (hys : ∀ p ∈ keys.zip ys, p ∈ table) :
    (∀ p ∈ keys.zip xs, p ∈ table) ↔ xs = ys := by
  constructor
  · intro h
    apply ext_getElem (hx.trans hy.symm)
    intro i hi hi'
    have hk : i < keys.length := by omega
    have hmem : (keys[i], xs[i]) ∈ keys.zip xs := mem_iff_getElem.mpr ⟨i, by simp; omega, by simp⟩
    have hmem' : (keys[i], ys[i]) ∈ keys.zip ys := mem_iff_getElem.mpr ⟨i, by simp; omega, by simp⟩
    exact congrArg Prod.snd (inj_on_of_nodup_map htable (h _ hmem) (hys _ hmem') rfl)
  · rintro rfl
    exact hys

def storedItems (lines : List PricingLine) (p : StorePricing) : List (String × Int) :=
  (lines.zip p.discounts).map fun l => (l.1.sellableItem.sellableItemId, l.2)

def promotionAmounts (collate : String → String → Ordering) (purpose : PromotionPurpose) (total : Nat)
    (eligible : List PlacedLine) : List Nat :=
  (allocated collate total (allocations total
    (eligible.map fun l => (l.1.orderItemId, (promotionItem l.1).budget purpose)))).map (·.amount)

theorem previewed_iff {previewed checked : List PromotionLine} {g : PricingLine → Int}
    {eligible : List PricingLine} (hsub : eligible.Sublist lines)
    (hdistinct : (lines.map (·.sellableItem.sellableItemId)).Nodup)
    (hkeys : previewed.map (·.id) = eligible.map (·.sellableItem.sellableItemId))
    (hdiscounts : eligible.map g = checked.map fun p => (p.discountMinor : Int)) :
    (∀ line ∈ previewed.map (fun p => StoreLine.mk p.id p.discountMinor p.rewardMinor),
        (line.id, line.discountMinor) ∈
          (lines.zip (lines.map g)).map fun l => (l.1.sellableItem.sellableItemId, l.2)) ↔
      previewed.map (·.discountMinor) = checked.map (·.discountMinor) := by
  have htable : ((lines.zip (lines.map g)).map fun l => (l.1.sellableItem.sellableItemId, l.2)) =
      lines.map fun l => (l.sellableItem.sellableItemId, g l) := by
    apply ext_getElem
    · simp
    · intro i hi _
      simp
  have hfst : ((lines.map fun l => (l.sellableItem.sellableItemId, g l)).map Prod.fst).Nodup := by
    rw [map_map]
    exact hdistinct
  have hkeyed : (previewed.map (·.id)).zip (previewed.map fun p => (p.discountMinor : Int)) =
      previewed.map fun p => (p.id, (p.discountMinor : Int)) := by
    rw [zip_map']
  have hchecked : ∀ p ∈ (previewed.map (·.id)).zip (checked.map fun p => (p.discountMinor : Int)),
      p ∈ lines.map fun l => (l.sellableItem.sellableItemId, g l) := by
    rw [hkeys, ← hdiscounts, zip_map']
    intro p hp
    exact (hsub.map _).subset hp
  have hlength : (checked.map fun p => (p.discountMinor : Int)).length = (previewed.map (·.id)).length := by
    rw [hkeys, ← hdiscounts, length_map, length_map]
  have hpreviewed : (previewed.map fun p => (p.discountMinor : Int)).length = (previewed.map (·.id)).length := by
    rw [length_map, length_map]
  have hzip := zip_subset_iff hfst hpreviewed hlength hchecked
  have hcast : (previewed.map fun p => (p.discountMinor : Int)) = (checked.map fun p => (p.discountMinor : Int)) ↔
      previewed.map (·.discountMinor) = checked.map (·.discountMinor) := by
    have hmap : ∀ xs : List PromotionLine, (xs.map fun p => (p.discountMinor : Int)) =
        (xs.map (·.discountMinor)).map Nat.cast := fun xs => (map_map ..).symm
    rw [hmap, hmap]
    exact (map_injective_iff.mpr Nat.cast_injective).eq_iff
  rw [htable, ← hcast, ← hzip, hkeyed, forall_mem_map, forall_mem_map]

theorem promotionDiscount_left_out {eligible : List PricingLine} (hsub : eligible.Sublist lines)
    (hids : (lines.map (·.orderItemId)).Nodup)
    (hlines : pricing.lines.map (·.id) = eligible.map (·.orderItemId)) (hl : l ∈ lines) (hout : l ∉ eligible) :
    promotionDiscount pricing l = 0 := by
  have hnone : pricing.lines.find? (fun p => p.id == l.orderItemId) = none := by
    rw [find?_eq_none]
    intro p hp hid
    have hmem : p.id ∈ eligible.map (·.orderItemId) := hlines ▸ mem_map_of_mem hp
    obtain ⟨l', hl', hid'⟩ := mem_map.mp hmem
    have hsame : l'.orderItemId = l.orderItemId := hid'.trans (by simpa using hid)
    obtain rfl := inj_on_of_nodup_map hids (hsub.subset hl') hl hsame
    exact hout hl'
  rw [promotionDiscount, hnone]
  rfl

theorem pricePromotionCoupon_relabel {q : PlacedLine → Bool}
    (hplans : ∀ l ∈ lines, l.orderItemId = l.sellableItem.sellableItemId)
    (hdistinct : (lines.map (·.sellableItem.sellableItemId)).Nodup)
    (hids : ((relabel ids lines).map (·.orderItemId)).Nodup)
    (h : pricePromotionCoupon collate purpose asked lines (lines.zipIdx.filter q) = .ok p) :
    ∃ p', pricePromotionCoupon collate purpose asked (relabel ids lines)
        ((lines.zipIdx.filter q).map (PlacedLine.under ids)) = .ok p' ∧ p'.discountMinor = p.discountMinor ∧
      ((∀ line ∈ p.lines, (line.id, line.discountMinor) ∈ storedItems (relabel ids lines) p') ↔
        promotionAmounts collate purpose p.discountMinor (lines.zipIdx.filter q) =
          promotionAmounts collate purpose p.discountMinor ((lines.zipIdx.filter q).map (PlacedLine.under ids))) ∧
      ∀ item ∈ storedItems (relabel ids lines) p', item.1 ∉ p.lines.map (·.id) → item.2 = 0 := by
  generalize heligible : lines.zipIdx.filter q = eligible at h ⊢
  have hsub : eligible.Sublist lines.zipIdx := heligible ▸ filter_sublist
  have hcurrency : (relabel ids lines).any (fun l => l.sellableItem.currency != "CNY" ||
      l.sellableItem.currencyDecimals != 2) = lines.any fun l => l.sellableItem.currency != "CNY" ||
      l.sellableItem.currencyDecimals != 2 := by
    have hany : ∀ xs : List PricingLine, xs.any (fun l => l.sellableItem.currency != "CNY" ||
        l.sellableItem.currencyDecimals != 2) = (xs.map (·.sellableItem)).any fun s => s.currency != "CNY" ||
        s.currencyDecimals != 2 := by
      intro xs
      rw [any_map]
      rfl
    rw [hany, hany, relabel_items]
  unfold pricePromotionCoupon at h ⊢
  rw [hcurrency]
  split at h
  · cases h
  rename_i hcny
  rw [if_neg hcny]
  cases hpricing : pricePromotion collate purpose (eligible.map fun l => promotionItem l.1) with
  | error e => simp [hpricing, Bind.bind, Except.bind] at h
  | ok pricing =>
    simp only [hpricing, Bind.bind, Except.bind] at h
    split at h
    · cases h
    rename_i hsome
    obtain rfl := Except.ok.inj h
    have hterms : ((eligible.map (PlacedLine.under ids)).map fun l => promotionItem l.1).map (·.terms) =
        (eligible.map fun l => promotionItem l.1).map (·.terms) := by
      rw [map_map, map_map, map_map]
      rfl
    obtain ⟨pricing', hpricing', htotal, hreward⟩ := pricePromotion_terms hterms hpricing
    simp only [hpricing', Bind.bind, Except.bind, htotal, if_neg hsome]
    refine ⟨_, rfl, rfl, ?_⟩
    obtain ⟨hlineIds, hamounts⟩ := promotion_lines hpricing
    obtain ⟨hlineIds', hamounts'⟩ := promotion_lines hpricing'
    -- the eligible lines of the checkout
    have hsub' : ((eligible.map (PlacedLine.under ids)).map Prod.fst).Sublist (relabel ids lines) := by
      have hfst : (relabel ids lines).zipIdx.map Prod.fst = relabel ids lines := zipIdx_map_fst 0 _
      have hmapped := (hsub.map (PlacedLine.under ids)).map Prod.fst
      rwa [← zipIdx_relabel, hfst] at hmapped
    have hids' : pricing'.lines.map (·.id) = ((eligible.map (PlacedLine.under ids)).map Prod.fst).map (·.orderItemId) := by
      rw [hlineIds', map_map, map_map, map_map, map_map]
      rfl
    have hnodup : (pricing'.lines.map (·.id)).Nodup := by
      rw [hids']
      exact hids.sublist (hsub'.map _)
    have hdiscounts := promotionDiscount_lines hnodup hids'
    have hkeys : pricing.lines.map (·.id) =
        ((eligible.map (PlacedLine.under ids)).map Prod.fst).map (·.sellableItem.sellableItemId) := by
      rw [hlineIds, map_map, map_map, map_map]
      refine map_congr_left fun l hl => ?_
      have hmem : l.1 ∈ lines := by
        have := mem_map_of_mem (f := Prod.fst) (hsub.subset hl)
        rwa [zipIdx_map_fst] at this
      exact hplans _ hmem
    have hxs : pricing.lines.map (·.discountMinor) = promotionAmounts collate purpose pricing.discountMinor eligible := by
      rw [hamounts, map_map]
      rfl
    have hys : pricing'.lines.map (·.discountMinor) =
        promotionAmounts collate purpose pricing.discountMinor (eligible.map (PlacedLine.under ids)) := by
      rw [hamounts', htotal, map_map]
      rfl
    rw [← hxs, ← hys]
    have hrelabelled : ((relabel ids lines).map (·.sellableItem.sellableItemId)).Nodup := by
      have hplan := congrArg (map StoreItem.sellableItemId) (relabel_items ids lines)
      rw [map_map, map_map] at hplan
      exact hplan ▸ hdistinct
    refine ⟨previewed_iff hsub' hrelabelled hkeys hdiscounts, fun item hitem hout => ?_⟩
    obtain ⟨⟨l, d⟩, hl, rfl⟩ := mem_map.mp hitem
    have hzip : (relabel ids lines).zip ((relabel ids lines).map (promotionDiscount pricing')) =
        (relabel ids lines).map fun l => (l, promotionDiscount pricing' l) := by
      apply ext_getElem
      · simp
      · intro i hi _
        simp
    simp only [hzip] at hl
    obtain ⟨l', hl', heq⟩ := mem_map.mp hl
    obtain ⟨rfl, rfl⟩ := Prod.mk.inj heq
    refine promotionDiscount_left_out hsub' hids hids' hl' fun hin => hout ?_
    have hplan := mem_map_of_mem (f := fun l : PricingLine => l.sellableItem.sellableItemId) hin
    rw [← hkeys] at hplan
    rw [map_map]
    exact hplan

/-! ## Ties -/

/-- New ids that `localeCompare` tells apart. -/
def DistinctIds (collate : String → String → Ordering) (n : Nat) (ids : Nat → String) : Prop :=
  ∀ i < n, ∀ j < n, i ≠ j → collate (ids i) (ids j) ≠ .eq

/-- The cents that a promotion leaves after the divisions do not run out among lines with equal remainders. -/
def TiesClear (purpose : PromotionPurpose) (eligible : List PlacedLine) : Prop :=
  let budgets := eligible.map fun l => (promotionItem l.1).budget purpose
  let total := min (promotionCap purpose) budgets.sum
  CutClear (total - (budgets.map (floorShare total budgets.sum)).sum) (budgets.map (remainder total budgets.sum))

instance (purpose : PromotionPurpose) (eligible : List PlacedLine) : Decidable (TiesClear purpose eligible) := by
  unfold TiesClear
  infer_instance

theorem allocations_remainder (hsum : 0 < (budgets.map (·.2)).sum) : (allocations total budgets).map (·.remainder) =
      (budgets.map (·.2)).map (remainder total (budgets.map (·.2)).sum) := by
  rw [← allocations_budget total budgets, map_map]
  refine map_congr_left fun r hr => ?_
  rw [allocations_budget]
  exact (allocations_share hsum hr).2

theorem tiesClear_rows (hbudgets : budgets.map (·.2) = eligible.map fun l => (promotionItem l.1).budget purpose)
    (htotal : total = min (promotionCap purpose) (eligible.map fun l => (promotionItem l.1).budget purpose).sum)
    (hpos : total ≠ 0) : TiesClear purpose eligible ↔
      CutClear (total - ((allocations total budgets).map (·.amount)).sum) ((allocations total budgets).map (·.remainder)) := by
  have hsum : 0 < (budgets.map (·.2)).sum := by
    rw [hbudgets]
    omega
  rw [allocations_amount hsum, allocations_remainder hsum, hbudgets, TiesClear, ← htotal]

theorem exists_first (collate : String → String → Ordering) [Std.TransCmp collate] (ids : Nat → String) (n : Nat) :
    ∃ m < n + 1, ∀ i < n + 1, collate (ids m) (ids i) ≠ .gt := by
  have hself : ∀ id, collate id id ≠ .gt := fun id h => by
    have heq : collate id id = .eq := Std.ReflCmp.compare_self
    rw [heq] at h
    cases h
  induction n with
  | zero =>
    refine ⟨0, by omega, fun i hi => ?_⟩
    obtain rfl : i = 0 := by omega
    exact hself _
  | succ n ih =>
    obtain ⟨m, hm, hfirst⟩ := ih
    by_cases hlast : collate (ids m) (ids (n + 1)) = .gt
    · refine ⟨n + 1, by omega, fun i hi => ?_⟩
      have hle : (collate (ids (n + 1)) (ids m)).isLE :=
        Ordering.ne_gt_iff_isLE.mp (by rw [Std.OrientedCmp.lt_of_gt hlast]; decide)
      rcases Nat.lt_succ_iff_lt_or_eq.mp hi with hi | rfl
      · exact Ordering.ne_gt_iff_isLE.mpr (Std.TransCmp.isLE_trans hle (Ordering.ne_gt_iff_isLE.mp (hfirst i hi)))
      · exact hself _
    · refine ⟨m, by omega, fun i hi => ?_⟩
      rcases Nat.lt_succ_iff_lt_or_eq.mp hi with hi | rfl
      · exact hfirst i hi
      · exact hlast

theorem exists_fresh [Std.TransCmp collate] (hids : DistinctIds collate n ids) {place : Nat} (hplace : place < n) :
    ∃ fresh, DistinctIds collate n fresh ∧ ∀ i < n, i ≠ place → collate (fresh place) (fresh i) = .lt := by
  obtain ⟨m, hm, hfirst⟩ := exists_first collate ids (n - 1)
  rw [Nat.sub_add_cancel (by omega)] at hm hfirst
  have hswap : ∀ i < n, Equiv.swap place m i < n := by
    intro i hi
    rw [Equiv.swap_apply_def]
    split_ifs <;> assumption
  have hdistinct : DistinctIds collate n fun i => ids (Equiv.swap place m i) := by
    intro i hi j hj hne
    exact hids _ (hswap i hi) _ (hswap j hj) fun h => hne ((Equiv.swap place m).injective h)
  refine ⟨_, hdistinct, fun i hi hne => ?_⟩
  have hnot := hdistinct place hplace i hi (Ne.symm hne)
  have hle := hfirst _ (hswap i hi)
  simp only [Equiv.swap_apply_left] at hnot ⊢
  cases hcase : collate (ids m) (ids (Equiv.swap place m i)) with
  | lt => rfl
  | eq => exact absurd hcase hnot
  | gt => exact absurd hcase hle

theorem mem_allocations {r : PromotionRow} (hr : r ∈ allocations total budgets) :
    ∃ h : r.place < budgets.length, r.id = (budgets[r.place]).1 := by
  obtain ⟨b, hb, rfl⟩ := mem_map.mp hr
  obtain ⟨-, hlt, heq⟩ := mem_zipIdx hb
  refine ⟨by simpa using hlt, ?_⟩
  rw [heq]
  rfl

theorem promotionAmounts_cut [Std.TransCmp collate] (hids : DistinctIds collate lines.length ids)
    (hsub : eligible.Sublist lines.zipIdx)
    (htotal : total = min (promotionCap purpose) (eligible.map fun l => (promotionItem l.1).budget purpose).sum)
    (hpos : total ≠ 0) (h : ¬ TiesClear purpose eligible) :
    ∃ fresh, DistinctIds collate lines.length fresh ∧ promotionAmounts collate purpose total eligible ≠
      promotionAmounts collate purpose total (eligible.map (PlacedLine.under fresh)) := by
  generalize hbudgets : eligible.map (fun l => (l.1.orderItemId, (promotionItem l.1).budget purpose)) = budgets
  have hsnd : budgets.map (·.2) = eligible.map fun l => (promotionItem l.1).budget purpose := by
    rw [← hbudgets, map_map]
    rfl
  rw [tiesClear_rows hsnd htotal hpos] at h
  obtain ⟨row, hrow, hnot, hcount⟩ := cut_row collate allocations_places h
  obtain ⟨hplace, -⟩ := mem_allocations hrow
  have hlength : budgets.length = eligible.length := by rw [← hbudgets, length_map]
  have hline : ∀ i (hi : i < eligible.length), eligible[i].2 < lines.length := by
    intro i hi
    obtain ⟨-, hlt, -⟩ := mem_zipIdx (hsub.subset (getElem_mem hi))
    simpa using hlt
  obtain ⟨fresh, hfresh, hfirst⟩ := exists_fresh hids (hline row.place (hlength ▸ hplace))
  refine ⟨fresh, hfresh, ?_⟩
  generalize hbudgets' : (eligible.map (PlacedLine.under fresh)).map
    (fun l => (l.1.orderItemId, (promotionItem l.1).budget purpose)) = budgets'
  have hsnd' : budgets'.map (·.2) = budgets.map (·.2) := by
    rw [← hbudgets', ← hbudgets, map_map, map_map, map_map]
    rfl
  have hstrip := allocations_strip total hsnd'.symm
  -- the row of the same place
  have hmem : (row.place, row.amount, row.remainder) ∈
      (allocations total budgets').map fun r => (r.place, r.amount, r.remainder) :=
    hstrip ▸ mem_map_of_mem hrow
  obtain ⟨row', hrow', heq⟩ := mem_map.mp hmem
  simp only [Prod.mk.injEq] at heq
  obtain ⟨hsame, -, hremainder⟩ := heq
  unfold promotionAmounts
  rw [hbudgets, hbudgets']
  refine amounts_differ hstrip allocations_places hrow hrow' hsame hnot (mem_favoured_first hrow' ?_ ?_)
  · have hremainders := congrArg (map fun r : Nat × Nat × Nat => r.2.2) hstrip
    have hamounts := congrArg (map fun r : Nat × Nat × Nat => r.2.1) hstrip
    rw [map_map, map_map] at hremainders hamounts
    have hremainders : (allocations total budgets).map (·.remainder) = (allocations total budgets').map (·.remainder) :=
      hremainders
    have hamounts : (allocations total budgets).map (·.amount) = (allocations total budgets').map (·.amount) := hamounts
    have hcounts : (allocations total budgets').countP (fun x => decide (row.remainder < x.remainder)) =
        (allocations total budgets).countP (fun x => decide (row.remainder < x.remainder)) := by
      have hmap : ∀ xs : List PromotionRow, xs.countP (fun x => decide (row.remainder < x.remainder)) =
          (xs.map (·.remainder)).countP fun n => decide (row.remainder < n) := by
        intro xs
        rw [countP_map]
        rfl
      rw [hmap, hmap, hremainders]
    rw [hremainder, hcounts, ← hamounts]
    exact hcount
  · intro x hx hne
    have hid : ∀ r ∈ allocations total budgets', ∃ hr : r.place < eligible.length, r.id = fresh eligible[r.place].2 := by
      intro r hr
      obtain ⟨hlt, hid⟩ := mem_allocations hr
      subst hbudgets'
      refine ⟨by simpa using hlt, hid.trans ?_⟩
      simp [PlacedLine.under, PricingLine.under]
    obtain ⟨hx', hxid⟩ := hid x hx
    obtain ⟨hr', hrid⟩ := hid row' hrow'
    rw [hrid, hxid]
    simp only [hsame]
    refine hfirst _ (hline _ hx') fun hplaces => hne ?_
    have hnodup : (eligible.map Prod.snd).Nodup := (places_nodup lines).sublist (hsub.map _)
    have hindex : x.place = row.place := by
      have hi : x.place < (eligible.map Prod.snd).length := by simpa using hx'
      have hj : row.place < (eligible.map Prod.snd).length := by simpa [hsame] using hr'
      have hget : (eligible.map Prod.snd)[x.place] = (eligible.map Prod.snd)[row.place] := by simpa using hplaces
      exact hnodup.getElem_inj_iff.mp hget
    exact inj_on_of_nodup_map allocations_places hx hrow' (hindex.trans hsame.symm)

/-! ## The preview -/

/-- The checkout stores the total and the discounts of the preview, and none for what the preview leaves out. -/
structure Agrees (p : StorePricing) (stored : StoredDiscounts) : Prop where
  total : stored.discountMinor = p.discountMinor
  previewed : ∀ line ∈ p.lines, (line.id, line.discountMinor) ∈ stored.items
  others : ∀ item ∈ stored.items, item.1 ∉ p.lines.map (·.id) → item.2 = 0

def PreviewClear (f : StoreFacts) (coupon : StoreCoupon) (items : List CartItem) : Prop :=
  ∀ purpose ∈ couponPurpose coupon.purpose, ∀ lines eligible,
    (items.mapM fun item => storeLine f item item.sellableItemId) = .ok lines →
      couponLines f.tagged coupon lines = .ok eligible → TiesClear purpose eligible

theorem storeLine_plan (h : storeLine f item id = .ok l) :
    l.orderItemId = id ∧ l.sellableItem.sellableItemId = item.sellableItemId := by
  unfold storeLine at h
  cases hitem : f.sellableItem item.sellableItemId with
  | error e => simp [hitem, Bind.bind, Except.bind] at h
  | ok s =>
    simp only [hitem, Bind.bind, Except.bind, Except.ok.injEq] at h
    subst h
    exact ⟨rfl, f.loaded _ _ hitem⟩

theorem preview_plans (h : (items.mapM fun item => storeLine f item item.sellableItemId) = .ok lines) :
    lines.map (·.orderItemId) = items.map (·.sellableItemId) ∧
      lines.map (·.sellableItem.sellableItemId) = items.map (·.sellableItemId) := by
  have hall := Lists.mapM_ok_iff.mp h
  have hids : List.Forall₂ (· = ·) (items.map (·.sellableItemId)) (lines.map (·.orderItemId)) :=
    forall₂_map_left_iff.mpr (forall₂_map_right_iff.mpr (hall.imp fun _ _ h => (storeLine_plan h).1.symm))
  have hplans : List.Forall₂ (· = ·) (items.map (·.sellableItemId)) (lines.map (·.sellableItem.sellableItemId)) :=
    forall₂_map_left_iff.mpr (forall₂_map_right_iff.mpr (hall.imp fun _ _ h => (storeLine_plan h).2.symm))
  rw [forall₂_eq_eq_eq] at hids hplans
  exact ⟨hids.symm, hplans.symm⟩

theorem preview_ok (hcoupon : f.coupon = .ok coupon) (h : previewStoreCoupon collate f items = .ok p) :
    ∃ lines, (items.mapM fun item => storeLine f item item.sellableItemId) = .ok lines ∧
      assertSingleCurrency lines = .ok () ∧ priceStoreCoupon collate f.tagged (some coupon) lines = .ok p := by
  unfold previewStoreCoupon at h
  rw [hcoupon] at h
  cases hlines : items.mapM fun item => storeLine f item item.sellableItemId with
  | error e => simp [hlines, Bind.bind, Except.bind] at h
  | ok lines =>
    cases hsingle : assertSingleCurrency lines with
    | error e => simp [hlines, hsingle, Bind.bind, Except.bind] at h
    | ok u =>
      simp only [hlines, hsingle, Bind.bind, Except.bind] at h
      exact ⟨lines, rfl, hsingle, h⟩

theorem checkoutDiscounts_eq (hcoupon : f.coupon = .ok coupon)
    (hlines : (items.mapM fun item => storeLine f item item.sellableItemId) = .ok lines)
    (hsingle : assertSingleCurrency lines = .ok ()) (fresh : Nat → String) :
    checkoutDiscounts collate f items fresh =
      (priceStoreCoupon collate f.tagged (some coupon) (relabel fresh lines)).map fun priced =>
        ⟨priced.discountMinor, storedItems (relabel fresh lines) priced⟩ := by
  unfold checkoutDiscounts
  rw [checkout_lines hlines fresh, hcoupon]
  simp only [Bind.bind, Except.bind, singleCurrency_relabel, hsingle]
  cases priceStoreCoupon collate f.tagged (some coupon) (relabel fresh lines) with
  | error e => rfl
  | ok priced => rfl

theorem priceStoreCoupon_relabel (h : priceStoreCoupon collate tagged (some coupon) lines = .ok p) :
    ∃ eligible, couponLines tagged coupon lines = .ok eligible ∧
      ((couponPurpose coupon.purpose = none ∧ priceStandardCoupon collate (some coupon) lines eligible = .ok p ∧
        ∀ ids, priceStoreCoupon collate tagged (some coupon) (relabel ids lines) =
          priceStandardCoupon collate (some coupon) (relabel ids lines) (eligible.map (PlacedLine.under ids))) ∨
      ∃ purpose, couponPurpose coupon.purpose = some purpose ∧
        pricePromotionCoupon collate purpose coupon.purpose lines eligible = .ok p ∧
        ∀ ids, priceStoreCoupon collate tagged (some coupon) (relabel ids lines) =
          pricePromotionCoupon collate purpose coupon.purpose (relabel ids lines)
            (eligible.map (PlacedLine.under ids))) := by
  have hsources : ∀ ids, (relabel ids lines).any (fun l => l.priceSource != .list) =
      lines.any fun l => l.priceSource != .list := by
    intro ids
    have hfst : lines.zipIdx.map Prod.fst = lines := zipIdx_map_fst 0 lines
    calc (relabel ids lines).any (fun l => l.priceSource != .list)
        = (lines.zipIdx.map Prod.fst).any fun l => l.priceSource != .list := by
          rw [relabel, any_map, any_map]
          rfl
      _ = lines.any fun l => l.priceSource != .list := by rw [hfst]
  cases hlines : couponLines tagged coupon lines with
  | error e => simp [priceStoreCoupon, hlines, Bind.bind, Except.bind] at h
  | ok eligible =>
    have hrelabelled : ∀ ids, couponLines tagged coupon (relabel ids lines) =
        .ok (eligible.map (PlacedLine.under ids)) := by
      intro ids
      rw [couponLines_relabel, hlines]
      rfl
    simp only [priceStoreCoupon, hlines, hrelabelled, hsources, isEmpty_map, Bind.bind, Except.bind] at h ⊢
    refine ⟨eligible, rfl, ?_⟩
    split at h
    · cases h
    rename_i hcombined
    cases hpurpose : couponPurpose coupon.purpose with
    | none =>
      simp only [hpurpose] at h
      exact .inl ⟨rfl, h, fun ids => if_neg hcombined⟩
    | some purpose =>
      simp only [hpurpose] at h
      exact .inr ⟨purpose, rfl, h, fun ids => if_neg hcombined⟩

theorem standard_agrees (hplans : ∀ l ∈ lines, l.orderItemId = l.sellableItem.sellableItemId)
    (h : priceStandardCoupon collate (some coupon) lines eligible = .ok p) (ids : Nat → String) :
    ∃ p', priceStandardCoupon collate (some coupon) (relabel ids lines) (eligible.map (PlacedLine.under ids)) = .ok p' ∧
      Agrees p ⟨p'.discountMinor, storedItems (relabel ids lines) p'⟩ := by
  obtain ⟨⟨p', hp', htotal, hdiscounts⟩, hlines⟩ := priceStandardCoupon_relabel ids h
  have hstored : storedItems (relabel ids lines) p' = p.lines.map fun line => (line.id, line.discountMinor) := by
    have hplan := congrArg (map StoreItem.sellableItemId) (relabel_items ids lines)
    rw [map_map, map_map] at hplan
    have hids : lines.map (·.orderItemId) = lines.map (·.sellableItem.sellableItemId) := map_congr_left hplans
    calc storedItems (relabel ids lines) p'
        = ((relabel ids lines).map (·.sellableItem.sellableItemId)).zip p'.discounts := by
          rw [storedItems, zip_map_left]
          rfl
      _ = (lines.map (·.orderItemId)).zip p.discounts := by
          rw [hdiscounts, hids]
          exact congrArg (zip · p.discounts) hplan
      _ = _ := by
          rw [hlines, zip_map_left, map_map]
          rfl
  refine ⟨p', hp', htotal, fun line hline => ?_, fun item hitem hout => ?_⟩
  · rw [hstored]
    exact mem_map_of_mem (f := fun line : StoreLine => (line.id, line.discountMinor)) hline
  · rw [hstored] at hitem
    obtain ⟨line, hline, rfl⟩ := mem_map.mp hitem
    exact absurd (mem_map_of_mem hline) hout

theorem pricePromotionCoupon_total (h : pricePromotionCoupon collate purpose asked lines eligible = .ok p) :
    p.discountMinor ≠ 0 ∧
      p.discountMinor = min (promotionCap purpose) (eligible.map fun l => (promotionItem l.1).budget purpose).sum := by
  unfold pricePromotionCoupon at h
  split at h
  · cases h
  cases hpricing : pricePromotion collate purpose (eligible.map fun l => promotionItem l.1) with
  | error e => simp [hpricing, Bind.bind, Except.bind] at h
  | ok pricing =>
    simp only [hpricing, Bind.bind, Except.bind] at h
    split at h
    · cases h
    rename_i hsome
    obtain rfl := Except.ok.inj h
    refine ⟨hsome, ?_⟩
    have htotal := (pricePromotion_allocates hpricing).2.1
    rw [map_map] at htotal
    exact htotal

theorem DistinctIds.nodup [Std.TransCmp collate] (h : DistinctIds collate n ids) :
    ((range n).map ids).Nodup := by
  refine List.Nodup.map_on (fun i hi j hj heq => ?_) nodup_range
  by_contra hne
  refine h i (mem_range.mp hi) j (mem_range.mp hj) hne ?_
  rw [heq]
  exact Std.ReflCmp.compare_self

theorem relabel_ids (ids : Nat → String) (lines : List PricingLine) :
    (relabel ids lines).map (·.orderItemId) = (range lines.length).map ids := by
  apply ext_getElem
  · simp [relabel]
  · intro i hi _
    simp [relabel, PricingLine.under]

theorem cart_ids (items : List CartItem) : (range items.length).map
    (fun i => (items[i]?.map (·.sellableItemId)).getD "") = items.map (·.sellableItemId) := by
  apply ext_getElem
  · simp
  · intro i hi hi'
    have hi : i < items.length := by simpa using hi
    simp [hi]

theorem promotionAmounts_clear
    (htotal : total = min (promotionCap purpose) (eligible.map fun l => (promotionItem l.1).budget purpose).sum)
    (hpos : total ≠ 0) (h : TiesClear purpose eligible) (ids : Nat → String) :
    promotionAmounts collate purpose total eligible =
      promotionAmounts collate purpose total (eligible.map (PlacedLine.under ids)) := by
  have hsnd : (eligible.map fun l => (l.1.orderItemId, (promotionItem l.1).budget purpose)).map (·.2) =
      eligible.map fun l => (promotionItem l.1).budget purpose := by
    rw [map_map]
    rfl
  refine amounts_clear ?_ ((tiesClear_rows hsnd htotal hpos).mp h)
  rw [map_map, map_map, map_map]
  rfl

/-- The checkout stores the discounts of the preview, whatever the new ids, exactly where no tie is cut. -/
theorem preview_equals_checkout_iff {collate : String → String → Ordering} [Std.TransCmp collate] {f : StoreFacts}
    {items : List CartItem} {coupon : StoreCoupon} {p : StorePricing}
    (hitems : DistinctIds collate items.length fun i => (items[i]?.map (·.sellableItemId)).getD "")
    (hcoupon : f.coupon = .ok coupon) (h : previewStoreCoupon collate f items = .ok p) :
    (∀ fresh, DistinctIds collate items.length fresh →
      ∃ stored, checkoutDiscounts collate f items fresh = .ok stored ∧ Agrees p stored) ↔
      PreviewClear f coupon items := by
  obtain ⟨lines, hlines, hsingle, hpriced⟩ := preview_ok hcoupon h
  obtain ⟨hids, hplanIds⟩ := preview_plans hlines
  have hlength : items.length = lines.length := by
    have := congrArg length hids
    rw [length_map, length_map] at this
    exact this.symm
  rw [hlength] at hitems ⊢
  have hplans : ∀ l ∈ lines, l.orderItemId = l.sellableItem.sellableItemId :=
    map_inj_left.mp (hids.trans hplanIds.symm)
  obtain ⟨eligible, heligible, ⟨hstandard, hown, hother⟩ | ⟨purpose, hpurpose, hown, hother⟩⟩ :=
    priceStoreCoupon_relabel hpriced
  · constructor
    · intro _ purpose hpurpose
      rw [hstandard] at hpurpose
      cases hpurpose
    · intro _ fresh _
      obtain ⟨p', hp', hagrees⟩ := standard_agrees hplans hown fresh
      refine ⟨_, ?_, hagrees⟩
      rw [checkoutDiscounts_eq hcoupon hlines hsingle, hother, hp']
      rfl
  · obtain ⟨hpos, htotal⟩ := pricePromotionCoupon_total hown
    obtain ⟨q, rfl⟩ := couponLines_filter heligible
    have hdistinct : (lines.map (·.sellableItem.sellableItemId)).Nodup := by
      rw [hplanIds, ← cart_ids, hlength]
      exact hitems.nodup
    constructor
    · intro hall purpose' hpurpose' lines' eligible' hlines' heligible'
      obtain rfl := Option.some.inj (hpurpose.symm.trans hpurpose')
      obtain rfl := ok.inj (hlines.symm.trans hlines')
      obtain rfl := ok.inj (heligible.symm.trans heligible')
      by_contra hcut
      obtain ⟨fresh, hfresh, hdiffer⟩ := promotionAmounts_cut hitems filter_sublist htotal hpos hcut
      obtain ⟨stored, hstored, hagrees⟩ := hall fresh hfresh
      obtain ⟨p', hp', -, hsame, -⟩ := pricePromotionCoupon_relabel hplans hdistinct
        (by rw [relabel_ids]; exact hfresh.nodup) hown
      rw [checkoutDiscounts_eq hcoupon hlines hsingle, hother, hp'] at hstored
      obtain rfl := ok.inj hstored
      exact hdiffer (hsame.mp hagrees.previewed)
    · intro hclear fresh hfresh
      obtain ⟨p', hp', htotal', hsame, hothers⟩ := pricePromotionCoupon_relabel hplans hdistinct
        (by rw [relabel_ids]; exact hfresh.nodup) hown
      have hties := hclear purpose hpurpose lines _ hlines heligible
      refine ⟨⟨p'.discountMinor, storedItems (relabel fresh lines) p'⟩, ?_, htotal', ?_, hothers⟩
      · rw [checkoutDiscounts_eq hcoupon hlines hsingle, hother, hp']
        rfl
      · exact hsame.mpr (promotionAmounts_clear htotal hpos hties fresh)

/-! ## Carts -/

def planA : String := "0a5d2c11-7b54-4c1e-9d0a-3f6e8b2a4c01"
def planB : String := "3b9e6f42-18d0-4e7a-8c35-5a7d1e9f6b02"
def planC : String := "c47f0a83-5e21-4b96-a1d8-9e4c2b7a8d03"

/-- Plans that grant 400 cents each, at 10 yuan apart from one; a referral coupon. Two cents are left over, for the
two lines at 10 yuan. -/
def referralFacts : StoreFacts where
  coupon := .ok { purpose := .referral, type := .fixed }
  sellableItem id := .ok ⟨id, id, "CNY", 2, "400"⟩
  linePrice item _ := if item.sellableItemId = planB then (202, .list) else (1000, .list)
  tagged _ _ := false
  loaded := by
    rintro id item ⟨⟩
    rfl

def evenFacts : StoreFacts where
  __ := referralFacts
  linePrice _ _ := (1000, .list)

theorem preview_equals_checkout_iff_two : ∃ p,
    previewStoreCoupon compare referralFacts [⟨planA, 1⟩, ⟨planB, 1⟩, ⟨planC, 1⟩] = .ok p ∧
      ∀ fresh, DistinctIds compare 3 fresh → ∃ stored,
        checkoutDiscounts compare referralFacts [⟨planA, 1⟩, ⟨planB, 1⟩, ⟨planC, 1⟩] fresh = .ok stored ∧
          Agrees p stored := by
  obtain ⟨p, h⟩ : ∃ p, previewStoreCoupon compare referralFacts [⟨planA, 1⟩, ⟨planB, 1⟩, ⟨planC, 1⟩] = .ok p :=
    ⟨_, rfl⟩
  refine ⟨p, h, (preview_equals_checkout_iff ?_ rfl h).mpr ?_⟩
  · unfold DistinctIds
    decide
  · rintro purpose ⟨⟩ lines eligible hlines heligible
    obtain rfl := ok.inj hlines
    obtain rfl := ok.inj heligible
    decide

/-- The preview gives the cent that is left to the first plan, the checkout to the line with the first new id. -/
theorem preview_tie_cut : ∃ p stored,
    previewStoreCoupon compare evenFacts [⟨planA, 1⟩, ⟨planB, 1⟩, ⟨planC, 1⟩] = .ok p ∧
      DistinctIds compare 3 (fun i => [planC, planB, planA][i]?.getD "") ∧
      checkoutDiscounts compare evenFacts [⟨planA, 1⟩, ⟨planB, 1⟩, ⟨planC, 1⟩]
        (fun i => [planC, planB, planA][i]?.getD "") = .ok stored ∧
      p.lines.map (fun line => (line.id, line.discountMinor)) = [(planA, 134), (planB, 133), (planC, 133)] ∧
      stored.items = [(planA, 133), (planB, 133), (planC, 134)] ∧ ¬ Agrees p stored := by
  obtain ⟨p, hp⟩ : ∃ p, previewStoreCoupon compare evenFacts [⟨planA, 1⟩, ⟨planB, 1⟩, ⟨planC, 1⟩] = .ok p := ⟨_, rfl⟩
  obtain ⟨stored, hstored⟩ : ∃ stored, checkoutDiscounts compare evenFacts [⟨planA, 1⟩, ⟨planB, 1⟩, ⟨planC, 1⟩]
      (fun i => [planC, planB, planA][i]?.getD "") = .ok stored := ⟨_, rfl⟩
  have hlines : p.lines.map (fun line => (line.id, line.discountMinor)) =
      [(planA, 134), (planB, 133), (planC, 133)] := by
    obtain rfl := ok.inj hp
    decide
  have hitems : stored.items = [(planA, 133), (planB, 133), (planC, 134)] := by
    obtain rfl := ok.inj hstored
    decide
  refine ⟨p, stored, hp, ?_, hstored, hlines, hitems, fun hagrees => ?_⟩
  · unfold DistinctIds
    decide
  · have hfirst : (planA, (134 : Int)) ∈ p.lines.map fun line => (line.id, line.discountMinor) := by
      rw [hlines]
      exact mem_cons_self
    obtain ⟨line, hline, heq⟩ := mem_map.mp hfirst
    have hmem := hagrees.previewed line hline
    rw [heq, hitems] at hmem
    revert hmem
    decide

end Gmshop
