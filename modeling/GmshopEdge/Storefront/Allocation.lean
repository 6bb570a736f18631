import Mathlib
import GmshopEdge.Storefront.Coupons

/-!
# The discounts of a standard coupon

`allocateDiscount` gives what the divisions leave to the line whose plan has the first id. It divides by the subtotal
of the eligible lines, and does not ask whether that line has room.
-/

namespace Gmshop

open List Apportion

/-- The discounts are within the lines' prices and add up to the total. -/
structure Allocated (lines : List PricingLine) (pricing : StorePricing) : Prop where
  within : List.Forall₂ (fun d (l : PricingLine) => 0 ≤ d ∧ d ≤ (l.subtotal : Int)) pricing.discounts lines
  sum : pricing.discounts.sum = pricing.discountMinor

/-- The eligible lines cost something, and the first of them by plan id has room for what the divisions leave: the
remainders of the other lines are at most its price times what the discount leaves of the subtotal. -/
def FirstHasRoom (collate : String → String → Ordering) (coupon : StoreCoupon) (eligible : List PlacedLine) : Prop :=
  0 < eligibleSubtotal eligible ∧ ∃ first rest, byPlan collate eligible = first :: rest ∧
    (rest.map fun l => remainder (coupon.total (eligibleSubtotal eligible)) (eligibleSubtotal eligible) l.1.subtotal).sum ≤
      (eligibleSubtotal eligible - coupon.total (eligibleSubtotal eligible)) * first.1.subtotal

/-! ## The eligible lines -/

variable {lines : List PricingLine} {tagged : List String → String → Bool} {coupon : StoreCoupon}
  {eligible : List PlacedLine} {ds : List (Nat × Int)} {q : PlacedLine → Bool}

theorem couponLines_filter (h : couponLines tagged coupon lines = .ok eligible) :
    ∃ q : PlacedLine → Bool, eligible = lines.zipIdx.filter q := by
  unfold couponLines at h
  cases hscope : coupon.scope with
  | error e => simp [hscope, Bind.bind, Except.bind] at h
  | ok scope =>
    simp only [hscope, Bind.bind, Except.bind] at h
    unfold eligibleLines at h
    split at h
    · cases h
    rename_i some heligible
    dsimp only at heligible
    obtain rfl := Except.ok.inj h
    split at heligible
    · obtain rfl := Except.ok.inj heligible
      exact ⟨_, rfl⟩
    split at heligible
    · cases heligible
    · obtain rfl := Except.ok.inj heligible
      exact ⟨_, filter_filter⟩

theorem places_nodup (lines : List PricingLine) : (lines.zipIdx.map Prod.snd).Nodup := by
  rw [zipIdx_map_snd]
  exact nodup_range'

/-! ## Discounts by place -/

theorem discountAt_of_mem (h : (ds.map Prod.fst).Nodup) {d : Nat × Int} (hd : d ∈ ds) : discountAt ds d.1 = d.2 := by
  cases hfind : ds.find? fun x => x.1 == d.1 with
  | none =>
    have := find?_eq_none.mp hfind d hd
    simp at this
  | some x =>
    have hx : x.1 = d.1 := by simpa using find?_some hfind
    obtain rfl := inj_on_of_nodup_map h (mem_of_find?_eq_some hfind) hd hx
    rw [discountAt, hfind]
    rfl

theorem discountAt_of_not_mem {place : Nat} (h : place ∉ ds.map Prod.fst) : discountAt ds place = 0 := by
  have hnone : ds.find? (fun d => d.1 == place) = none := by
    refine find?_eq_none.mpr fun d hd heq => h ?_
    rw [← beq_iff_eq.mp heq]
    exact mem_map_of_mem hd
  rw [discountAt, hnone]
  rfl

theorem sum_filter_of_zero {α : Type} {q : α → Bool} {f : α → Int} {xs : List α} (h : ∀ x ∈ xs, q x = false → f x = 0) :
    ((xs.filter q).map f).sum = (xs.map f).sum := by
  induction xs with
  | nil => rfl
  | cons x xs ih =>
    have ih := ih fun y hy => h y (mem_cons_of_mem _ hy)
    cases hq : q x with
    | true => rw [filter_cons_of_pos hq, map_cons, map_cons, sum_cons, sum_cons, ih]
    | false =>
      rw [filter_cons_of_neg (by simp [hq]), map_cons, sum_cons, h x mem_cons_self hq, ih,
        Int.zero_add]

/-! ## The shares -/

section Shares

variable {total subtotal : Nat} {first : PlacedLine} {rest : List PlacedLine}

theorem lineDiscounts_cons : lineDiscounts total subtotal (first :: rest) =
    (first.2, (floorShare total subtotal first.1.subtotal : Int) +
      (total - ((first :: rest).map fun l => (floorShare total subtotal l.1.subtotal : Int)).sum)) ::
      rest.map fun l => (l.2, (floorShare total subtotal l.1.subtotal : Int)) := by
  rw [lineDiscounts]
  simp only [map_cons, sum_cons, map_map]
  rfl

theorem lineDiscounts_places (ordered : List PlacedLine) :
    (lineDiscounts total subtotal ordered).map Prod.fst = ordered.map Prod.snd := by
  cases ordered with
  | nil => rfl
  | cons first rest =>
    rw [lineDiscounts_cons, map_cons, map_cons, map_map]
    rfl

theorem lineDiscounts_sum : ((lineDiscounts total subtotal (first :: rest)).map Prod.snd).sum = total := by
  rw [lineDiscounts_cons, map_cons, sum_cons, map_map]
  simp only [map_cons, sum_cons, Function.comp_def]
  omega

variable (total) in
theorem first_discount (hsum : eligibleSubtotal (first :: rest) = subtotal) :
    (subtotal : Int) * ((floorShare total subtotal first.1.subtotal : Int) +
      (total - ((first :: rest).map fun l => (floorShare total subtotal l.1.subtotal : Int)).sum)) =
    total * first.1.subtotal + (rest.map fun l => remainder total subtotal l.1.subtotal).sum := by
  have hall := floors_add_remainders total subtotal ((first :: rest).map (·.1.subtotal))
  have hone : subtotal * floorShare total subtotal first.1.subtotal + remainder total subtotal first.1.subtotal =
      total * first.1.subtotal := Nat.div_add_mod _ _
  have hcast : ((first :: rest).map fun l => (floorShare total subtotal l.1.subtotal : Int)).sum =
      (((first :: rest).map fun l => floorShare total subtotal l.1.subtotal).sum : Nat) := by
    rw [Nat.cast_list_sum, List.map_map]
    rfl
  rw [List.map_map, List.map_map, show ((first :: rest).map (·.1.subtotal)).sum = subtotal from hsum] at hall
  simp only [Function.comp_def, List.map_cons, List.sum_cons] at hall
  have hall' := congrArg (Nat.cast : Nat → Int) hall
  have hone' := congrArg (Nat.cast : Nat → Int) hone
  rw [hcast]
  simp only [List.map_cons, List.sum_cons]
  push_cast at hall' hone' ⊢
  linear_combination hone' - hall'

theorem first_within (hsum : eligibleSubtotal (first :: rest) = subtotal) (hpos : 0 < subtotal) (htotal : total ≤ subtotal) :
    (floorShare total subtotal first.1.subtotal : Int) +
        (total - ((first :: rest).map fun l => (floorShare total subtotal l.1.subtotal : Int)).sum) ≤ first.1.subtotal ↔
      (rest.map fun l => remainder total subtotal l.1.subtotal).sum ≤ (subtotal - total) * first.1.subtotal := by
  have hfirst := first_discount total hsum
  have hpos' : (0 : Int) < subtotal := by exact_mod_cast hpos
  rw [← mul_le_mul_iff_right₀ hpos', hfirst, ← Int.ofNat_le (m := sum _)]
  rw [Nat.cast_mul, Nat.cast_sub htotal, sub_mul]
  constructor
  · intro h
    linarith
  · intro h
    linarith

end Shares

/-! ## The coupon on the cart -/

theorem byPlan_perm (collate : String → String → Ordering) (lines : List PlacedLine) :
    (byPlan collate lines).Perm lines := perm_insertionSort _ _

theorem total_le (coupon : StoreCoupon) (subtotal : Nat) : coupon.total subtotal ≤ subtotal := Nat.min_le_right _ _

theorem priceStoreCoupon_standard (collate : String → String → Ordering)
    (hstandard : coupon.purpose = .standard) (hlines : couponLines tagged coupon lines = .ok eligible)
    (hne : eligible ≠ []) (hcurrency : ∀ l ∈ eligible.head?, coupon.sameCurrency l.1.sellableItem = true)
    (hminimum : coupon.minimumMet (lines.map (·.subtotal)).sum = true) :
    (eligibleSubtotal eligible = 0 → priceStoreCoupon collate tagged (some coupon) lines =
      .error (rangeError "Division by zero")) ∧
    (0 < eligibleSubtotal eligible → ∃ pricing, priceStoreCoupon collate tagged (some coupon) lines = .ok pricing ∧
      pricing.discountMinor = coupon.total (eligibleSubtotal eligible) ∧
      pricing.discounts = lines.zipIdx.map fun l => discountAt (lineDiscounts (coupon.total (eligibleSubtotal eligible))
        (eligibleSubtotal eligible) (byPlan collate eligible)) l.2) := by
  obtain ⟨first, rest, rfl⟩ := exists_cons_of_ne_nil hne
  have hsame : coupon.sameCurrency first.1.sellableItem = true := hcurrency first rfl
  unfold priceStoreCoupon
  simp only [hlines, Bind.bind, Except.bind, isEmpty_cons, Bool.false_and, Bool.false_eq_true, if_false, hstandard,
    couponPurpose, priceStandardCoupon, allocateDiscount, hsame, Bool.not_true, hminimum]
  constructor
  · intro hzero
    rw [if_pos hzero]
  · intro hpos
    rw [if_neg (Nat.pos_iff_ne_zero.mp hpos)]
    exact ⟨_, rfl, rfl, rfl⟩

theorem discounts_sum (collate : String → String → Ordering) (total subtotal : Nat)
    (hne : lines.zipIdx.filter q ≠ []) :
    (lines.zipIdx.map fun l => discountAt (lineDiscounts total subtotal (byPlan collate (lines.zipIdx.filter q))) l.2).sum =
      total := by
  have hperm := byPlan_perm collate (lines.zipIdx.filter q)
  have hplaces : ((lineDiscounts total subtotal (byPlan collate (lines.zipIdx.filter q))).map Prod.fst).Perm
      ((lines.zipIdx.filter q).map Prod.snd) := by
    rw [lineDiscounts_places]
    exact hperm.map _
  have hnodup : ((lineDiscounts total subtotal (byPlan collate (lines.zipIdx.filter q))).map Prod.fst).Nodup :=
    hplaces.nodup_iff.mpr ((places_nodup lines).sublist (filter_sublist.map _))
  have hzero : ∀ l ∈ lines.zipIdx, q l = false →
      discountAt (lineDiscounts total subtotal (byPlan collate (lines.zipIdx.filter q))) l.2 = 0 := by
    intro l hl hq
    refine discountAt_of_not_mem fun hmem => ?_
    obtain ⟨l', hl', heq⟩ := mem_map.mp (hplaces.mem_iff.mp hmem)
    obtain ⟨hl', hq'⟩ := mem_filter.mp hl'
    obtain rfl := inj_on_of_nodup_map (places_nodup lines) hl' hl heq
    rw [hq] at hq'
    cases hq'
  rw [← sum_filter_of_zero hzero]
  have hsame : ∀ f : Nat → Int, ((lines.zipIdx.filter q).map fun l => f l.2).sum =
      ((lineDiscounts total subtotal (byPlan collate (lines.zipIdx.filter q))).map fun d => f d.1).sum := by
    intro f
    have h := ((hplaces.map f).sum_eq).symm
    rwa [map_map, map_map] at h
  rw [hsame]
  have hvalues : ((lineDiscounts total subtotal (byPlan collate (lines.zipIdx.filter q))).map fun d =>
      discountAt (lineDiscounts total subtotal (byPlan collate (lines.zipIdx.filter q))) d.1) =
      (lineDiscounts total subtotal (byPlan collate (lines.zipIdx.filter q))).map Prod.snd :=
    map_congr_left fun d hd => discountAt_of_mem hnodup hd
  rw [hvalues]
  cases hordered : byPlan collate (lines.zipIdx.filter q) with
  | nil =>
    rw [hordered] at hperm
    exact absurd (nil_perm.mp hperm) hne
  | cons first rest => exact lineDiscounts_sum

theorem forall_discounts {f : PlacedLine → Int} :
    List.Forall₂ (fun d (l : PricingLine) => 0 ≤ d ∧ d ≤ (l.subtotal : Int)) (lines.zipIdx.map f) lines ↔
      ∀ l ∈ lines.zipIdx, 0 ≤ f l ∧ f l ≤ (l.1.subtotal : Int) := by
  have hlines : lines.zipIdx.map Prod.fst = lines := zipIdx_map_fst 0 lines
  have h : List.Forall₂ (fun d (l : PricingLine) => 0 ≤ d ∧ d ≤ (l.subtotal : Int)) (lines.zipIdx.map f)
      (lines.zipIdx.map Prod.fst) ↔ ∀ l ∈ lines.zipIdx, 0 ≤ f l ∧ f l ≤ (l.1.subtotal : Int) := by
    rw [forall₂_map_left_iff, forall₂_map_right_iff, forall₂_same]
  rwa [hlines] at h

theorem discounts_within {collate : String → String → Ordering} {total : Nat}
    (hpos : 0 < eligibleSubtotal (lines.zipIdx.filter q))
    (htotal : total ≤ eligibleSubtotal (lines.zipIdx.filter q)) {first : PlacedLine} {rest : List PlacedLine}
    (hordered : byPlan collate (lines.zipIdx.filter q) = first :: rest) :
    (∀ l ∈ lines.zipIdx, 0 ≤ discountAt (lineDiscounts total (eligibleSubtotal (lines.zipIdx.filter q)) (first :: rest)) l.2 ∧
      discountAt (lineDiscounts total (eligibleSubtotal (lines.zipIdx.filter q)) (first :: rest)) l.2 ≤ (l.1.subtotal : Int)) ↔
    (rest.map fun l => remainder total (eligibleSubtotal (lines.zipIdx.filter q)) l.1.subtotal).sum ≤
      (eligibleSubtotal (lines.zipIdx.filter q) - total) * first.1.subtotal := by
  have hperm := byPlan_perm collate (lines.zipIdx.filter q)
  rw [hordered] at hperm
  have hsum : eligibleSubtotal (first :: rest) = eligibleSubtotal (lines.zipIdx.filter q) := (hperm.map _).sum_eq
  generalize eligibleSubtotal (lines.zipIdx.filter q) = subtotal at *
  have hnodup : ((lineDiscounts total subtotal (first :: rest)).map Prod.fst).Nodup := by
    rw [lineDiscounts_places]
    exact (hperm.map _).nodup_iff.mpr ((places_nodup lines).sublist (filter_sublist.map _))
  have hfirst : discountAt (lineDiscounts total subtotal (first :: rest)) first.2 =
      (floorShare total subtotal first.1.subtotal : Int) +
        (total - ((first :: rest).map fun l => (floorShare total subtotal l.1.subtotal : Int)).sum) := by
    have hmem : (first.2, (floorShare total subtotal first.1.subtotal : Int) +
        (total - ((first :: rest).map fun l => (floorShare total subtotal l.1.subtotal : Int)).sum)) ∈
        lineDiscounts total subtotal (first :: rest) := by
      rw [lineDiscounts_cons]
      exact mem_cons_self
    exact discountAt_of_mem hnodup hmem
  have hrest : ∀ l ∈ rest, discountAt (lineDiscounts total subtotal (first :: rest)) l.2 =
      (floorShare total subtotal l.1.subtotal : Int) := by
    intro l hl
    have hmem : (l.2, (floorShare total subtotal l.1.subtotal : Int)) ∈ lineDiscounts total subtotal (first :: rest) := by
      rw [lineDiscounts_cons]
      exact mem_cons_of_mem _ (mem_map.mpr ⟨l, hl, rfl⟩)
    exact discountAt_of_mem hnodup hmem
  have hmemFirst : first ∈ lines.zipIdx := mem_of_mem_filter (hperm.mem_iff.mp mem_cons_self)
  rw [← first_within hsum hpos htotal, ← hfirst]
  refine ⟨fun h => (h first hmemFirst).2, fun h l hl => ?_⟩
  by_cases hmem : l ∈ first :: rest
  · rcases mem_cons.mp hmem with rfl | hl'
    · refine ⟨?_, h⟩
      -- the divisions leave no less than nothing
      have hweights : ((l :: rest).map (·.1.subtotal)).sum = subtotal := hsum
      have hfloors : (((l :: rest).map (·.1.subtotal)).map
          (floorShare total ((l :: rest).map (·.1.subtotal)).sum)).sum ≤ total :=
        floors_le total (by rw [hweights]; exact hpos)
      rw [hweights, map_map] at hfloors
      have hcast : ((l :: rest).map fun l => (floorShare total subtotal l.1.subtotal : Int)).sum =
          (((l :: rest).map fun l => floorShare total subtotal l.1.subtotal).sum : Nat) := by
        rw [Nat.cast_list_sum, map_map]
        rfl
      have hle : ((((l :: rest).map fun l => floorShare total subtotal l.1.subtotal).sum : Nat) : Int) ≤ total := by
        exact_mod_cast hfloors
      rw [hfirst, hcast]
      omega
    · rw [hrest l hl']
      exact ⟨Int.natCast_nonneg _, by exact_mod_cast floorShare_le htotal⟩
  · have hzero : discountAt (lineDiscounts total subtotal (first :: rest)) l.2 = 0 := by
      refine discountAt_of_not_mem fun hplace => hmem ?_
      rw [lineDiscounts_places] at hplace
      obtain ⟨l', hl', heq⟩ := mem_map.mp hplace
      have hin : l' ∈ lines.zipIdx := mem_of_mem_filter (hperm.mem_iff.mp hl')
      obtain rfl := inj_on_of_nodup_map (places_nodup lines) hin hl heq
      exact hl'
    rw [hzero]
    exact ⟨le_rfl, Int.natCast_nonneg _⟩

/-- A standard coupon that applies is priced, within the lines and in full, exactly when the first line has room. -/
theorem standard_allocated_iff {collate : String → String → Ordering} {tagged : List String → String → Bool}
    {coupon : StoreCoupon} {lines : List PricingLine} {eligible : List PlacedLine} (hstandard : coupon.purpose = .standard)
    (hlines : couponLines tagged coupon lines = .ok eligible) (hne : eligible ≠ [])
    (hcurrency : ∀ l ∈ eligible.head?, coupon.sameCurrency l.1.sellableItem = true)
    (hminimum : coupon.minimumMet (lines.map (·.subtotal)).sum = true) :
    (∃ pricing, priceStoreCoupon collate tagged (some coupon) lines = .ok pricing ∧ Allocated lines pricing) ↔
      FirstHasRoom collate coupon eligible := by
  obtain ⟨hzero, hsome⟩ := priceStoreCoupon_standard collate hstandard hlines hne hcurrency hminimum
  obtain ⟨q, rfl⟩ := couponLines_filter hlines
  rcases Nat.eq_zero_or_pos (eligibleSubtotal (lines.zipIdx.filter q)) with h | hpos
  · constructor
    · rintro ⟨pricing, hpricing, -⟩
      rw [hzero h] at hpricing
      cases hpricing
    · rintro ⟨hpos, -⟩
      rw [h] at hpos
      exact absurd hpos (Nat.lt_irrefl 0)
  obtain ⟨pricing, hpricing, htotal, hdiscounts⟩ := hsome hpos
  have hsum := discounts_sum collate (coupon.total (eligibleSubtotal (lines.zipIdx.filter q)))
    (eligibleSubtotal (lines.zipIdx.filter q)) hne
  cases hordered : byPlan collate (lines.zipIdx.filter q) with
  | nil => exact absurd (nil_perm.mp (hordered ▸ byPlan_perm collate (lines.zipIdx.filter q))) hne
  | cons first rest =>
    have hwithin := discounts_within hpos (total_le coupon _) hordered
    rw [hordered] at hdiscounts hsum
    constructor
    · rintro ⟨pricing', hpricing', hallocated⟩
      obtain rfl := Except.ok.inj (hpricing.symm.trans hpricing')
      have hall := hallocated.within
      rw [hdiscounts, forall_discounts] at hall
      exact ⟨hpos, first, rest, hordered, hwithin.mp hall⟩
    · rintro ⟨-, first', rest', hordered', hroom⟩
      obtain ⟨rfl, rfl⟩ := cons.inj (hordered.symm.trans hordered')
      refine ⟨pricing, hpricing, ?_, ?_⟩
      · rw [hdiscounts, forall_discounts]
        exact hwithin.mpr hroom
      · rw [hdiscounts, htotal]
        exact hsum

/-! ## Carts -/

def cartLine (plan : String) (price : Nat) : PricingLine where
  orderItemId := plan
  sellableItem := ⟨plan, plan, "CNY", 2, "0"⟩
  unitPriceMinor := price
  priceSource := .list
  quantity := 1

def fixedCoupon (value : Nat) : StoreCoupon where
  purpose := .standard
  type := .fixed
  currency := some "CNY"
  currencyDecimals := some 2
  valueMinor := some value

theorem standard_allocated_iff_even : ∃ pricing, priceStoreCoupon compare (fun _ _ => false) (some (fixedCoupon 100))
    [cartLine "a" 300, cartLine "b" 600] = .ok pricing ∧ Allocated [cartLine "a" 300, cartLine "b" 600] pricing := by
  refine (@standard_allocated_iff compare (fun _ _ => false) (fixedCoupon 100) [cartLine "a" 300, cartLine "b" 600]
    [(cartLine "a" 300, 0), (cartLine "b" 600, 1)] rfl rfl (by decide) ?_ ?_).mpr
    ⟨by decide, (cartLine "a" 300, 0), [(cartLine "b" 600, 1)], by decide, by decide⟩
  · rintro l ⟨⟩
    rfl
  · decide

/-- A cart of free lines divides by zero, and a free line with the first id gets the cent that is left. -/
theorem free_line_discounted : priceStoreCoupon compare (fun _ _ => false) (some (fixedCoupon 100)) [cartLine "a" 0] =
      .error (rangeError "Division by zero") ∧
    ∃ pricing, priceStoreCoupon compare (fun _ _ => false) (some (fixedCoupon 1))
        [cartLine "a" 0, cartLine "b" 1, cartLine "c" 1] = .ok pricing ∧
      pricing.discounts = [1, 0, 0] ∧ ¬ Allocated [cartLine "a" 0, cartLine "b" 1, cartLine "c" 1] pricing := by
  refine ⟨by decide, ?_⟩
  obtain ⟨pricing, h⟩ : ∃ pricing, priceStoreCoupon compare (fun _ _ => false) (some (fixedCoupon 1))
      [cartLine "a" 0, cartLine "b" 1, cartLine "c" 1] = .ok pricing := ⟨_, rfl⟩
  have hdiscounts : pricing.discounts = [1, 0, 0] := by
    obtain rfl := Except.ok.inj h
    decide
  refine ⟨pricing, h, hdiscounts, fun hall => ?_⟩
  have hwithin := hall.within
  rw [hdiscounts] at hwithin
  cases hwithin with
  | cons hfirst _ => exact absurd hfirst.2 (by decide)

end Gmshop
