import GmshopEdge.Db.Schema
import GmshopEdge.Lib.Apportion
import GmshopEdge.Lib.Digits

/-!
# Promotion pricing

`pricePromotion` (`promotions/pricing.ts`) divides the discount of an invitation or a recall coupon between the
eligible lines by the largest remainder method. For accepted lines with budgets `b`:

    sum of the discounts = min cap (sum b)   discount ≤ b ≤ subtotal  (pricePromotion_allocates)

`localeCompare` is the argument `collate`; only ties of the remainders depend on it. Amounts are numbers here, texts
in the source.
-/

namespace Gmshop

open List Apportion

inductive PromotionPurpose where
  | referral
  | recall
  deriving DecidableEq

def promotionBudgets : List String := ["0", "100", "200", "400", "800"]

def promotionCapMinor : Nat := 800

structure PromotionItem where
  id : String
  budgetMinor : String
  subtotalMinor : String
  quantity : Rat

structure PromotionLine where
  id : String
  discountMinor : Nat
  rewardMinor : Nat

structure PromotionPricing where
  discountMinor : Nat
  rewardMinor : Nat
  lines : List PromotionLine

/-- `/^\d+$/`. -/
def decimalText (s : String) : Bool := !s.toList.isEmpty && decide (Digits.IsDigits s.toList)

def isSafeInteger (q : Rat) : Bool := q.den == 1 && decide (q.num.natAbs ≤ 9007199254740991)

def promotionConfigurationInvalid : DomainError :=
  ⟨"promotion_configuration_invalid", 409, "Invalid promotion configuration"⟩

def PromotionItem.configured (item : PromotionItem) : Bool :=
  promotionBudgets.contains item.budgetMinor && decimalText item.subtotalMinor && isSafeInteger item.quantity &&
    decide (1 ≤ item.quantity)

def PromotionItem.subtotal (item : PromotionItem) : Nat := Digits.value item.subtotalMinor.toList

/-- The budget of a line: what the plan grants for the quantity, within the price, in equal cents for a referral. -/
def PromotionItem.budget (purpose : PromotionPurpose) (item : PromotionItem) : Nat :=
  let requested := Digits.value item.budgetMinor.toList * item.quantity.num.toNat
  let budget := if requested < item.subtotal then requested else item.subtotal
  if purpose = .referral then budget / 2 else budget

structure PromotionRow where
  place : Nat
  id : String
  budget : Nat
  amount : Nat
  remainder : Nat

def allocations (total : Nat) (budgets : List (String × Nat)) : List PromotionRow :=
  let sum := (budgets.map (·.2)).sum
  budgets.zipIdx.map fun b =>
    { place := b.2, id := b.1.1, budget := b.1.2
      amount := if sum = 0 then 0 else floorShare total sum b.1.2
      remainder := if sum = 0 then 0 else remainder total sum b.1.2 }

def PromotionRow.before (collate : String → String → Ordering) (a b : PromotionRow) : Prop :=
  if a.remainder = b.remainder then collate a.id b.id ≠ .gt else b.remainder < a.remainder

instance (collate : String → String → Ordering) : DecidableRel (PromotionRow.before collate) := fun a b => by
  unfold PromotionRow.before
  infer_instance

def favoured (collate : String → String → Ordering) (rows : List PromotionRow) (remaining : Nat) : List Nat :=
  ((rows.insertionSort (PromotionRow.before collate)).take remaining).map (·.place)

def allocated (collate : String → String → Ordering) (total : Nat) (rows : List PromotionRow) : List PromotionRow :=
  let remaining := total - (rows.map (·.amount)).sum
  rows.map fun r => if (favoured collate rows remaining).contains r.place then { r with amount := r.amount + 1 } else r

def promotionCap (purpose : PromotionPurpose) : Nat :=
  if purpose = .referral then promotionCapMinor / 2 else promotionCapMinor

def pricePromotion (collate : String → String → Ordering) (purpose : PromotionPurpose) (items : List PromotionItem) :
    Except DomainError PromotionPricing :=
  if items.all PromotionItem.configured then
    let budgets := items.map fun item => (item.id, item.budget purpose)
    let sum := (budgets.map (·.2)).sum
    let total := if sum < promotionCap purpose then sum else promotionCap purpose
    let lines := (allocated collate total (allocations total budgets)).map fun r =>
      { id := r.id, discountMinor := r.amount, rewardMinor := if purpose = .referral then r.amount else 0
        : PromotionLine }
    .ok { discountMinor := total, rewardMinor := if purpose = .referral then total else 0, lines := lines }
  else .error promotionConfigurationInvalid

/-! ## The allocation -/

section Allocation

variable {collate : String → String → Ordering} {total : Nat} {budgets : List (String × Nat)}

variable (total budgets) in
theorem allocations_budgets : (allocations total budgets).map (fun r => (r.id, r.budget)) = budgets := by
  rw [allocations, List.map_map]
  show List.map Prod.fst budgets.zipIdx = budgets
  exact List.zipIdx_map_fst 0 budgets

theorem allocations_places : ((allocations total budgets).map (·.place)).Nodup := by
  rw [allocations, map_map]
  show (map Prod.snd budgets.zipIdx).Nodup
  rw [zipIdx_map_snd]
  exact nodup_range'

theorem allocations_share {r : PromotionRow} (hsum : 0 < (budgets.map (·.2)).sum) (hr : r ∈ allocations total budgets) :
    r.amount = floorShare total (budgets.map (·.2)).sum r.budget ∧
      r.remainder = remainder total (budgets.map (·.2)).sum r.budget := by
  obtain ⟨b, -, rfl⟩ := mem_map.mp hr
  exact ⟨if_neg (Nat.pos_iff_ne_zero.mp hsum), if_neg (Nat.pos_iff_ne_zero.mp hsum)⟩

theorem rows_desc (collate : String → String → Ordering) (rows : List PromotionRow) :
    (rows.insertionSort (PromotionRow.before collate)).Pairwise fun a b => b.remainder ≤ a.remainder := by
  refine insertionSort_desc (fun a b h => ?_) (fun a b h => ?_) rows
  · unfold PromotionRow.before at h
    split at h
    · omega
    · omega
  · unfold PromotionRow.before at h
    split at h
    · omega
    · omega

variable (total budgets) in
theorem allocations_budget : (allocations total budgets).map (·.budget) = budgets.map (·.2) := by
  have h := congrArg (List.map Prod.snd) (allocations_budgets total budgets)
  rwa [List.map_map] at h

theorem allocations_amount (hsum : 0 < (budgets.map (·.2)).sum) : (allocations total budgets).map (·.amount) =
    (budgets.map (·.2)).map (floorShare total (budgets.map (·.2)).sum) := by
  rw [← allocations_budget total budgets, map_map]
  refine map_congr_left fun r hr => ?_
  rw [allocations_budget]
  exact (allocations_share hsum hr).1

variable (total budgets) in
theorem remaining_le (hsum : 0 < (budgets.map (·.2)).sum) : total - ((allocations total budgets).map (·.amount)).sum ≤
      (allocations total budgets).countP (0 < ·.remainder) := by
  have hremainders : (allocations total budgets).countP (0 < ·.remainder) =
      (budgets.map (·.2)).countP (0 < remainder total (budgets.map (·.2)).sum ·) := by
    rw [← allocations_budget total budgets, List.countP_map]
    refine List.countP_congr fun r hr => ?_
    rw [allocations_budget, Function.comp_apply, (allocations_share hsum hr).2]
  rw [hremainders, allocations_amount hsum]
  exact spare_le_positive total hsum

variable (collate) in
theorem favoured_positive (hsum : 0 < (budgets.map (·.2)).sum) {r : PromotionRow} (hr : r ∈ allocations total budgets)
    (hfav : r.place ∈ favoured collate (allocations total budgets)
      (total - ((allocations total budgets).map (·.amount)).sum)) : 0 < r.remainder := by
  obtain ⟨r', hr', hplace⟩ := List.mem_map.mp hfav
  have hmem : r' ∈ allocations total budgets :=
    (List.perm_insertionSort _ _).subset ((List.take_sublist _ _).subset hr')
  obtain rfl : r' = r := List.inj_on_of_nodup_map allocations_places hmem hr hplace
  refine take_positive (r := (·.remainder)) (rows_desc collate _) ?_ r' hr'
  rw [(List.perm_insertionSort _ _).countP_eq]
  exact remaining_le total budgets hsum

theorem amounts_zero (hsum : (budgets.map (·.2)).sum = 0) {r : PromotionRow} (hr : r ∈ allocations total budgets) :
    r.amount = 0 := by
  obtain ⟨b, -, rfl⟩ := mem_map.mp hr
  exact if_pos hsum

variable (collate) in
theorem allocated_le (htotal : total ≤ (budgets.map (·.2)).sum) :
    List.Forall₂ (fun a b => a.id = b.1 ∧ a.amount ≤ b.2) (allocated collate total (allocations total budgets)) budgets := by
  have hrow : ∀ r ∈ allocations total budgets, (fun a : PromotionRow => a.id = r.id ∧ a.amount ≤ r.budget)
      (if (favoured collate (allocations total budgets)
          (total - ((allocations total budgets).map (·.amount)).sum)).contains r.place
        then { r with amount := r.amount + 1 } else r) := by
    intro r hr
    rcases Nat.eq_zero_or_pos (budgets.map (·.2)).sum with hzero | hpos
    · have hsum : ((allocations total budgets).map (·.amount)).sum = 0 := by
        refine List.sum_eq_zero fun n hn => ?_
        obtain ⟨r', hr', rfl⟩ := List.mem_map.mp hn
        exact amounts_zero hzero hr'
      have hnone : total - ((allocations total budgets).map (·.amount)).sum = 0 := by omega
      rw [hnone]
      simp [favoured, amounts_zero hzero hr]
    · obtain ⟨hamount, hrest⟩ := allocations_share hpos hr
      split
      · rename_i hfav
        have hroom := favoured_positive collate hpos hr (List.contains_iff_mem.mp hfav)
        rw [hrest] at hroom
        refine ⟨rfl, ?_⟩
        show r.amount + 1 ≤ r.budget
        rw [hamount]
        exact floorShare_lt htotal hroom
      · exact ⟨rfl, by rw [hamount]; exact floorShare_le htotal⟩
  have hbudgets := allocations_budgets total budgets
  conv => rhs; rw [← hbudgets]
  rw [allocated, List.forall₂_map_left_iff, List.forall₂_map_right_iff]
  exact List.forall₂_same.mpr hrow

variable (collate) in
theorem allocated_sum (htotal : total ≤ (budgets.map (·.2)).sum) :
    ((allocated collate total (allocations total budgets)).map (·.amount)).sum = total := by
  rcases Nat.eq_zero_or_pos (budgets.map (·.2)).sum with hzero | hpos
  · have hle : ((allocated collate total (allocations total budgets)).map (·.amount)).sum ≤ (budgets.map (·.2)).sum := by
      refine List.Forall₂.sum_le_sum ?_
      rw [List.forall₂_map_left_iff, List.forall₂_map_right_iff]
      exact (allocated_le collate htotal).imp fun _ _ h => h.2
    omega
  · have hperm := List.perm_insertionSort (PromotionRow.before collate) (allocations total budgets)
    have hplaces : ((List.insertionSort (PromotionRow.before collate) (allocations total budgets)).map (·.place)).Nodup :=
      (hperm.map _).nodup_iff.mpr allocations_places
    have henough := remaining_le total budgets hpos
    have hlength := List.countP_le_length (p := fun r : PromotionRow => decide (0 < r.remainder))
      (l := allocations total budgets)
    have hfloors : ((allocations total budgets).map (·.amount)).sum ≤ total := by
      rw [allocations_amount hpos]
      exact floors_le total hpos
    have hcount : (allocations total budgets).countP (fun r => (favoured collate (allocations total budgets)
        (total - ((allocations total budgets).map (·.amount)).sum)).contains r.place) =
        total - ((allocations total budgets).map (·.amount)).sum := by
      rw [← hperm.countP_eq, favoured]
      refine countP_take hplaces ?_
      rw [hperm.length_eq]
      omega
    have hamounts : (allocated collate total (allocations total budgets)).map (·.amount) =
        (allocations total budgets).map fun r => if (favoured collate (allocations total budgets)
          (total - ((allocations total budgets).map (·.amount)).sum)).contains r.place then r.amount + 1
          else r.amount := by
      rw [allocated, List.map_map]
      refine List.map_congr_left fun r _ => ?_
      rw [Function.comp_apply]
      split <;> rfl
    have hsum := sum_bonus PromotionRow.amount (fun r => (favoured collate (allocations total budgets)
      (total - ((allocations total budgets).map (·.amount)).sum)).contains r.place) (allocations total budgets)
    rw [hcount] at hsum
    rw [hamounts]
    exact hsum.trans (Nat.add_sub_of_le hfloors)

end Allocation

/-! ## Prices -/

theorem budget_le (purpose : PromotionPurpose) (item : PromotionItem) : item.budget purpose ≤ item.subtotal := by
  unfold PromotionItem.budget
  dsimp only
  split <;> split <;> omega

theorem budget_referral (item : PromotionItem) : 2 * item.budget .referral ≤ item.subtotal := by
  unfold PromotionItem.budget
  dsimp only
  rw [if_pos rfl]
  split <;> omega

theorem budget_both (purpose : PromotionPurpose) (items : List PromotionItem) :
    (items.map (·.budget purpose)).sum + (if purpose = .referral then (items.map (·.budget purpose)).sum else 0) ≤
      (items.map (·.subtotal)).sum := by
  induction items with
  | nil => cases purpose <;> simp
  | cons item items ih =>
    have hone := budget_le purpose item
    have htwo := budget_referral item
    simp only [map_cons, sum_cons]
    cases purpose with
    | referral =>
      simp only [if_true] at ih ⊢
      omega
    | «recall» =>
      simp only [reduceCtorEq, if_false] at ih ⊢
      omega

def PromotionItem.terms (item : PromotionItem) : String × String × Rat :=
  (item.budgetMinor, item.subtotalMinor, item.quantity)

theorem pricePromotion_ok {collate : String → String → Ordering} {purpose : PromotionPurpose}
    {items : List PromotionItem} {pricing : PromotionPricing} (h : pricePromotion collate purpose items = .ok pricing) :
    ∃ total, total = min (promotionCap purpose) (items.map (·.budget purpose)).sum ∧
      total ≤ (items.map (·.budget purpose)).sum ∧
      pricing = { discountMinor := total, rewardMinor := if purpose = .referral then total else 0
                  lines := (allocated collate total (allocations total
                    (items.map fun item => (item.id, item.budget purpose)))).map fun r =>
                      { id := r.id, discountMinor := r.amount
                        rewardMinor := if purpose = .referral then r.amount else 0 } } := by
  have hsum : ((items.map fun item => (item.id, item.budget purpose)).map (·.2)).sum =
      (items.map (·.budget purpose)).sum := by
    rw [map_map]
    rfl
  unfold pricePromotion at h
  split at h
  · refine ⟨_, ?_, ?_, (Except.ok.inj h).symm⟩
    · rw [hsum]
      split <;> omega
    · rw [hsum]
      split <;> omega
  · cases h

/-- The lines get exactly the capped budget, each within its own; the total depends neither on the order of the
lines nor on their ids. -/
theorem pricePromotion_allocates {collate : String → String → Ordering} {purpose : PromotionPurpose}
    {items : List PromotionItem} {pricing : PromotionPricing} (h : pricePromotion collate purpose items = .ok pricing) :
    (pricing.lines.map (·.discountMinor)).sum = min (promotionCap purpose) (items.map (·.budget purpose)).sum ∧
      pricing.discountMinor = min (promotionCap purpose) (items.map (·.budget purpose)).sum ∧
      List.Forall₂ (fun line item => line.id = item.id ∧ line.discountMinor ≤ item.budget purpose ∧
        line.discountMinor ≤ item.subtotal) pricing.lines items ∧
      pricing.discountMinor + pricing.rewardMinor ≤ (items.map (·.subtotal)).sum ∧
      ∀ (collate' : String → String → Ordering) (items' : List PromotionItem) (pricing' : PromotionPricing),
        (items'.map (·.terms)).Perm (items.map (·.terms)) → pricePromotion collate' purpose items' = .ok pricing' →
          pricing'.discountMinor = pricing.discountMinor := by
  obtain ⟨total, htotal, hle, rfl⟩ := pricePromotion_ok h
  have hfst : (items.map fun item => (item.id, item.budget purpose)).map (·.2) = items.map (·.budget purpose) := by
    rw [map_map]
    rfl
  have hbudgets : total ≤ ((items.map fun item => (item.id, item.budget purpose)).map (·.2)).sum := by
    rw [hfst]
    exact hle
  refine ⟨?_, htotal, ?_, ?_, fun collate' items' pricing' hperm h' => ?_⟩
  · rw [← htotal, map_map]
    exact allocated_sum collate hbudgets
  · rw [forall₂_map_left_iff]
    have hrows := allocated_le collate hbudgets
    rw [forall₂_map_right_iff] at hrows
    exact hrows.imp fun a item ha => ⟨ha.1, ha.2, Nat.le_trans ha.2 (budget_le purpose item)⟩
  · refine Nat.le_trans ?_ (budget_both purpose items)
    show total + (if purpose = .referral then total else 0) ≤ _
    split <;> omega
  · obtain ⟨total', htotal', -, rfl⟩ := pricePromotion_ok h'
    have hsame : (items'.map (·.budget purpose)).Perm (items.map (·.budget purpose)) := by
      have := hperm.map fun t : String × String × Rat => (PromotionItem.mk "" t.1 t.2.1 t.2.2).budget purpose
      rwa [map_map, map_map] at this
    show total' = total
    rw [htotal', htotal, hsame.sum_eq]

/-- Three lines that share the cap of a referral, with one cent left over. -/
def referredLines : List PromotionItem :=
  [⟨"b", "800", "108000", 1⟩, ⟨"a", "800", "140000", 1⟩, ⟨"c", "800", "140000", 2⟩]

theorem pricePromotion_allocates_referred : ∃ pricing, pricePromotion compare .referral referredLines = .ok pricing ∧
      (pricing.lines.map (·.discountMinor)).sum = 400 ∧ pricing.discountMinor = 400 ∧
      pricing.discountMinor + pricing.rewardMinor ≤ 388000 := by
  obtain ⟨pricing, h⟩ : ∃ pricing, pricePromotion compare .referral referredLines = .ok pricing := ⟨_, rfl⟩
  obtain ⟨hsum, htotal, -, hboth, -⟩ := pricePromotion_allocates h
  exact ⟨pricing, h, hsum, htotal, Nat.le_trans hboth (by decide)⟩

end Gmshop
