import Mathlib
import GmshopEdge.Storefront.Coupons

/-!
# Unit prices

`resolveUnitPrice` (`storefront/volume-pricing.ts`): the unit price of a checkout line out of the list price, the
volume steps of the item and the prices agreed with the customer.

A table has a threshold once (primary key of `sellable_item_volume_prices`, unique index of `customer_item_prices`).

    IsLeast (the offers) (resolveUnitPrice i)  (resolveUnitPrice_isLeast)
-/

namespace Gmshop

open List

/-! ## Steps -/

/-- `T extends { minQuantity: number }`. -/
class QuantityStep (α : Type) where
  minQuantity : α → Nat

export QuantityStep (minQuantity)

structure StepTable (α : Type) [QuantityStep α] where
  steps : List α
  distinct : (steps.map minQuantity).Nodup

structure VolumeStep where
  minQuantity : Nat
  discountMinor : Nat

structure CustomerPriceStep where
  minQuantity : Nat
  priceMinor : Nat
  channelPrices : List (Id × Nat)

instance : QuantityStep VolumeStep := ⟨VolumeStep.minQuantity⟩
instance : QuantityStep CustomerPriceStep := ⟨CustomerPriceStep.minQuantity⟩

section Steps

variable {α : Type} [QuantityStep α] {steps : List α} {quantity : Nat} {x : α}

/-- The loop of `deepestStep`: the step replaces what was found. -/
def deeper (quantity : Nat) (found : Option α) (step : α) : Option α :=
  if minQuantity step ≤ quantity ∧ found.all (fun x => minQuantity x < minQuantity step) then some step else found

def deepestStep (steps : List α) (quantity : Nat) : Option α := steps.foldl (deeper quantity) none

structure Deepest (steps : List α) (quantity : Nat) (x : α) : Prop where
  mem : x ∈ steps
  applies : minQuantity x ≤ quantity
  deepest : ∀ y ∈ steps, minQuantity y ≤ quantity → minQuantity y ≤ minQuantity x

theorem deeper_spec (quantity : Nat) (found : Option α) (step : α) :
    (∀ x, deeper quantity found step = some x → found = some x ∨ (x = step ∧ minQuantity step ≤ quantity)) ∧
    (∀ z, found = some z → ∃ x, deeper quantity found step = some x ∧ minQuantity z ≤ minQuantity x) ∧
    (minQuantity step ≤ quantity → ∃ x, deeper quantity found step = some x ∧ minQuantity step ≤ minQuantity x) := by
  unfold deeper
  split
  · next h =>
    refine ⟨fun x hx => .inr ⟨(Option.some.inj hx).symm, h.1⟩, fun z hz => ⟨step, rfl, ?_⟩, fun _ => ⟨step, rfl, le_rfl⟩⟩
    rw [hz, Option.all_some, decide_eq_true_iff] at h
    exact h.2.le
  · next h =>
    refine ⟨fun x hx => .inl hx, fun z hz => ⟨z, hz, le_rfl⟩, fun happlies => ?_⟩
    cases found with
    | none => exact absurd ⟨happlies, rfl⟩ h
    | some z =>
      by_contra hdeeper
      exact h ⟨happlies, by simpa using hdeeper⟩

theorem deepestFrom_spec (steps : List α) (quantity : Nat) (found : Option α) :
    (∀ x, steps.foldl (deeper quantity) found = some x → found = some x ∨ (x ∈ steps ∧ minQuantity x ≤ quantity)) ∧
    (∀ z, found = some z → ∃ x, steps.foldl (deeper quantity) found = some x ∧ minQuantity z ≤ minQuantity x) ∧
    (∀ y ∈ steps, minQuantity y ≤ quantity →
      ∃ x, steps.foldl (deeper quantity) found = some x ∧ minQuantity y ≤ minQuantity x) := by
  induction steps generalizing found with
  | nil => exact ⟨fun x hx => .inl hx, fun z hz => ⟨z, hz, le_rfl⟩, fun y hy => absurd hy not_mem_nil⟩
  | cons step rest ih =>
    obtain ⟨hfrom, hkept, hstep⟩ := deeper_spec quantity found step
    obtain ⟨ihfrom, ihkept, ihrest⟩ := ih (deeper quantity found step)
    refine ⟨fun x hx => ?_, fun z hz => ?_, fun y hy happlies => ?_⟩
    · rcases ihfrom x hx with hx | ⟨hmem, happlies⟩
      · rcases hfrom x hx with hx | ⟨rfl, happlies⟩
        · exact .inl hx
        · exact .inr ⟨mem_cons_self, happlies⟩
      · exact .inr ⟨mem_cons_of_mem _ hmem, happlies⟩
    · obtain ⟨z', hz', hle⟩ := hkept z hz
      obtain ⟨x, hx, hle'⟩ := ihkept z' hz'
      exact ⟨x, hx, hle.trans hle'⟩
    · rcases mem_cons.mp hy with rfl | hy
      · obtain ⟨z', hz', hle⟩ := hstep happlies
        obtain ⟨x, hx, hle'⟩ := ihkept z' hz'
        exact ⟨x, hx, hle.trans hle'⟩
      · exact ihrest y hy happlies

theorem Deepest.unique (hdistinct : (steps.map minQuantity).Nodup) {y : α} (hx : Deepest steps quantity x)
    (hy : Deepest steps quantity y) : x = y :=
  inj_on_of_nodup_map hdistinct hx.mem hy.mem
    (Nat.le_antisymm (hy.deepest x hx.mem hx.applies) (hx.deepest y hy.mem hy.applies))

theorem exists_deepest {y : α} (hy : y ∈ steps) (happlies : minQuantity y ≤ quantity) :
    ∃ x, deepestStep steps quantity = some x ∧ minQuantity y ≤ minQuantity x :=
  (deepestFrom_spec steps quantity none).2.2 y hy happlies

theorem deepestStep_deepest (h : deepestStep steps quantity = some x) : Deepest steps quantity x := by
  obtain ⟨hfrom, -, hall⟩ := deepestFrom_spec steps quantity none
  rcases hfrom x h with hnone | ⟨hmem, happlies⟩
  · cases hnone
  · refine ⟨hmem, happlies, fun y hy hq => ?_⟩
    obtain ⟨x', hx', hle⟩ := hall y hy hq
    obtain rfl : x = x' := Option.some.inj (h.symm.trans hx')
    exact hle

theorem StepTable.deepestStep_iff (t : StepTable α) :
    deepestStep t.steps quantity = some x ↔ Deepest t.steps quantity x := by
  constructor
  · exact deepestStep_deepest
  · intro h
    obtain ⟨x', hx', -⟩ := exists_deepest h.mem h.applies
    rw [hx', (deepestStep_deepest hx').unique t.distinct h]

theorem StepTable.deepestStep_perm {t u : StepTable α} (h : t.steps.Perm u.steps) (quantity : Nat) :
    deepestStep t.steps quantity = deepestStep u.steps quantity := by
  refine Option.ext fun x => ?_
  rw [t.deepestStep_iff, u.deepestStep_iff]
  constructor
  · exact fun hx => ⟨h.mem_iff.mp hx.mem, hx.applies, fun y hy => hx.deepest y (h.mem_iff.mpr hy)⟩
  · exact fun hx => ⟨h.mem_iff.mpr hx.mem, hx.applies, fun y hy => hx.deepest y (h.mem_iff.mp hy)⟩

end Steps

/-! ## The unit price -/

structure UnitPriceInput where
  listPriceMinor : Nat
  basePriceMinor : Nat
  channelId : Option Id
  quantity : Nat
  volumeSteps : StepTable VolumeStep
  customerSteps : StepTable CustomerPriceStep

structure UnitPrice where
  unitPriceMinor : Int
  source : PriceSource

/-- The price of an agreement on the channel: the named one, or the base price with the channel's difference. -/
def CustomerPriceStep.applicable (c : CustomerPriceStep) (i : UnitPriceInput) : Int :=
  match i.channelId.bind fun id => c.channelPrices.lookup id with
  | some named => named
  | none => c.priceMinor + ((i.listPriceMinor : Int) - i.basePriceMinor)

def volumePrice (i : UnitPriceInput) : UnitPrice :=
  match deepestStep i.volumeSteps.steps i.quantity with
  | some volume =>
    if 0 < volume.discountMinor ∧ volume.discountMinor < i.listPriceMinor then
      ⟨(i.listPriceMinor : Int) - volume.discountMinor, .volume⟩
    else ⟨i.listPriceMinor, .list⟩
  | none => ⟨i.listPriceMinor, .list⟩

def resolveUnitPrice (i : UnitPriceInput) : UnitPrice :=
  let best := volumePrice i
  match deepestStep i.customerSteps.steps i.quantity with
  | some customer =>
    let price := customer.applicable i
    if 0 < price ∧ price < best.unitPriceMinor then ⟨price, .customer⟩ else best
  | none => best

inductive Offer (i : UnitPriceInput) : Int → Prop
  | list : Offer i i.listPriceMinor
  | volume (v : VolumeStep) (deepest : Deepest i.volumeSteps.steps i.quantity v) (pos : 0 < v.discountMinor)
      (below : v.discountMinor < i.listPriceMinor) : Offer i ((i.listPriceMinor : Int) - v.discountMinor)
  | customer (c : CustomerPriceStep) (deepest : Deepest i.customerSteps.steps i.quantity c)
      (pos : 0 < c.applicable i) : Offer i (c.applicable i)

theorem volumePrice_offer (i : UnitPriceInput) : Offer i (volumePrice i).unitPriceMinor := by
  unfold volumePrice
  split
  · next v hv =>
    split
    · next h => exact .volume v (deepestStep_deepest hv) h.1 h.2
    · exact .list
  · exact .list

theorem volumePrice_le (i : UnitPriceInput) : (volumePrice i).unitPriceMinor ≤ i.listPriceMinor := by
  unfold volumePrice
  split
  · next v hv =>
    split
    · dsimp only
      omega
    · exact le_rfl
  · exact le_rfl

variable {i : UnitPriceInput}

theorem volumePrice_le_volume {v : VolumeStep} (h : Deepest i.volumeSteps.steps i.quantity v)
    (hpos : 0 < v.discountMinor) (hbelow : v.discountMinor < i.listPriceMinor) :
    (volumePrice i).unitPriceMinor ≤ (i.listPriceMinor : Int) - v.discountMinor := by
  unfold volumePrice
  rw [i.volumeSteps.deepestStep_iff.mpr h]
  dsimp only
  rw [if_pos ⟨hpos, hbelow⟩]

theorem resolveUnitPrice_le (i : UnitPriceInput) :
    (resolveUnitPrice i).unitPriceMinor ≤ (volumePrice i).unitPriceMinor := by
  unfold resolveUnitPrice
  split
  · next c hc =>
    dsimp only
    split
    · next h => exact h.2.le
    · exact le_rfl
  · exact le_rfl

theorem resolveUnitPrice_isLeast (i : UnitPriceInput) :
    IsLeast {p | Offer i p} (resolveUnitPrice i).unitPriceMinor := by
  constructor
  · show Offer i (resolveUnitPrice i).unitPriceMinor
    unfold resolveUnitPrice
    split
    · next c hc =>
      dsimp only
      split
      · next h => exact .customer c (deepestStep_deepest hc) h.1
      · exact volumePrice_offer i
    · exact volumePrice_offer i
  · rintro p (_ | ⟨v, hv, hpos, hbelow⟩ | ⟨c, hc, hpos⟩)
    · exact (resolveUnitPrice_le i).trans (volumePrice_le i)
    · exact (resolveUnitPrice_le i).trans (volumePrice_le_volume hv hpos hbelow)
    · unfold resolveUnitPrice
      rw [i.customerSteps.deepestStep_iff.mpr hc]
      dsimp only
      split
      · exact le_rfl
      · next h => exact not_lt.mp fun hlt => h ⟨hpos, hlt⟩

/-! ## More of an item -/

/-- A larger threshold takes a larger discount off, and a lower price is agreed for it. -/
structure Deepens (i : UnitPriceInput) : Prop where
  volume : ∀ v ∈ i.volumeSteps.steps, ∀ w ∈ i.volumeSteps.steps, v.minQuantity ≤ w.minQuantity →
    v.discountMinor ≤ w.discountMinor
  customer : ∀ c ∈ i.customerSteps.steps, ∀ d ∈ i.customerSteps.steps, c.minQuantity ≤ d.minQuantity →
    d.applicable i ≤ c.applicable i

/-- Up to the quantity, the steps behind one that counts count as well: discounts below the list price, prices
above zero. -/
structure StaysValid (i : UnitPriceInput) (quantity : Nat) : Prop where
  volume : ∀ v ∈ i.volumeSteps.steps, ∀ w ∈ i.volumeSteps.steps, v.minQuantity ≤ w.minQuantity →
    w.minQuantity ≤ quantity → v.discountMinor < i.listPriceMinor → w.discountMinor < i.listPriceMinor
  customer : ∀ c ∈ i.customerSteps.steps, ∀ d ∈ i.customerSteps.steps, c.minQuantity ≤ d.minQuantity →
    d.minQuantity ≤ quantity → 0 < c.applicable i → 0 < d.applicable i

theorem Offer.more {p : Int} (h : Offer i p) {quantity : Nat} (hle : i.quantity ≤ quantity) (hd : Deepens i)
    (hv : StaysValid i quantity) : ∃ p', Offer { i with quantity := quantity } p' ∧ p' ≤ p := by
  cases h with
  | list => exact ⟨_, .list, le_rfl⟩
  | volume v hdeep hpos hbelow =>
    obtain ⟨w, hw, hthreshold⟩ := exists_deepest hdeep.mem (hdeep.applies.trans hle)
    have hwdeep := deepestStep_deepest hw
    have hdiscount := hd.volume v hdeep.mem w hwdeep.mem hthreshold
    have hwbelow := hv.volume v hdeep.mem w hwdeep.mem hthreshold hwdeep.applies hbelow
    refine ⟨_, .volume w hwdeep (hpos.trans_le hdiscount) hwbelow, ?_⟩
    dsimp only
    omega
  | customer c hdeep hpos =>
    obtain ⟨d, hd', hthreshold⟩ := exists_deepest hdeep.mem (hdeep.applies.trans hle)
    have hddeep := deepestStep_deepest hd'
    exact ⟨_, .customer d hddeep (hv.customer c hdeep.mem d hddeep.mem hthreshold hddeep.applies hpos),
      hd.customer c hdeep.mem d hddeep.mem hthreshold⟩

structure SameRows (i j : UnitPriceInput) : Prop where
  listPriceMinor : j.listPriceMinor = i.listPriceMinor
  basePriceMinor : j.basePriceMinor = i.basePriceMinor
  channelId : j.channelId = i.channelId
  quantity : j.quantity = i.quantity
  volumeSteps : j.volumeSteps.steps.Perm i.volumeSteps.steps
  customerSteps : j.customerSteps.steps.Perm i.customerSteps.steps

theorem SameRows.resolve {j : UnitPriceInput} (h : SameRows i j) : resolveUnitPrice j = resolveUnitPrice i := by
  have happlicable : ∀ c : CustomerPriceStep, c.applicable j = c.applicable i := by
    intro c
    unfold CustomerPriceStep.applicable
    rw [h.listPriceMinor, h.basePriceMinor, h.channelId]
  have hvolume : volumePrice j = volumePrice i := by
    unfold volumePrice
    rw [h.listPriceMinor, h.quantity, StepTable.deepestStep_perm h.volumeSteps]
  unfold resolveUnitPrice
  simp only [hvolume, happlicable, h.quantity, StepTable.deepestStep_perm h.customerSteps]

/-- The price is the least offer and at most the list price, it does not depend on the order of the rows, and more
of an item does not cost more each while steps deepen and stay valid. -/
theorem resolveUnitPrice_lawful (i : UnitPriceInput) : IsLeast {p | Offer i p} (resolveUnitPrice i).unitPriceMinor ∧
      (resolveUnitPrice i).unitPriceMinor ≤ i.listPriceMinor ∧
      (∀ quantity, i.quantity ≤ quantity → Deepens i → StaysValid i quantity →
        (resolveUnitPrice { i with quantity := quantity }).unitPriceMinor ≤ (resolveUnitPrice i).unitPriceMinor) ∧
      ∀ j, SameRows i j → resolveUnitPrice j = resolveUnitPrice i := by
  refine ⟨resolveUnitPrice_isLeast i, (resolveUnitPrice_le i).trans (volumePrice_le i), ?_, fun j h => h.resolve⟩
  intro quantity hle hd hv
  obtain ⟨p, hp, hlow⟩ := (resolveUnitPrice_isLeast i).1.more hle hd hv
  exact ((resolveUnitPrice_isLeast _).2 hp).trans hlow

def oversizedDiscount : UnitPriceInput where
  listPriceMinor := 50
  basePriceMinor := 50
  channelId := none
  quantity := 5
  volumeSteps := ⟨[⟨5, 10⟩, ⟨10, 60⟩], by decide⟩
  customerSteps := ⟨[], by decide⟩

/-- Ten cost more each than five, for the discount of ten does not count. -/
theorem resolveUnitPrice_rises : ¬∀ (i : UnitPriceInput) (quantity : Nat), i.quantity ≤ quantity → Deepens i →
      (resolveUnitPrice { i with quantity := quantity }).unitPriceMinor ≤ (resolveUnitPrice i).unitPriceMinor := by
  intro h
  have hdeepens : Deepens oversizedDiscount := ⟨by decide, by decide⟩
  exact absurd (h oversizedDiscount 10 (by decide) hdeepens) (by decide)

end Gmshop
