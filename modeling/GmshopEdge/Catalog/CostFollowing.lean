import GmshopEdge.Catalog.PriceFloors

/-!
# Following a cost change

`followPlan` of `ops-automation/server/pricing-guard.ts` and the loop body of `runPricingGuard` that calls it: a
cost change shifts the three prices of an item, `settle` snaps each to the grid, keeps its direction and raises it to
its floor.

Two later steps undo that. The agent price is corrected against the USDT price in either direction, and the limit of
the Alipay price is rounded to the nearest grid price, which may be above it.

    the new prices are as promised  ↔  Orderly i  (followPlan_orderly)
-/

namespace Gmshop

open Option

def roundNiceMinor (minor : Int) : Int :=
  let step : Int := niceStepMinor minor.toNat
  (2 * minor + step) / (2 * step) * step

def followMinRiseMinor : Int := 100

def shouldFollow (deltaMinor : Int) : Bool := deltaMinor < 0 || followMinRiseMinor ≤ deltaMinor

def agentMinNetMinor : Nat := 100

def ceilYuanMinor (minor : Nat) : Nat := ceilDiv minor 100 * 100

/-- The argument of `followPlan`. -/
structure FollowInput extends PlanPriceInput where
  baselineMinor : Nat

namespace FollowInput

def delta (i : FollowInput) : Int := (i.costMinor : Int) - i.baselineMinor

/-- What USDT has to reach, a grid step over the floor of the agent price included. -/
def followNeed (i : FollowInput) : Nat :=
  let need := i.needMinor.getD (i.costMinor + i.floorMinor)
  match i.prices.agentMinor, i.agentFloorMinor with
  | some _, some floor =>
    let agentFloor := ceilNiceMinor floor
    max need (agentFloor + niceStepMinor agentFloor)
  | _, _ => need

def settle (i : FollowInput) (oldMinor : Nat) (targetMinor : Int) (required : Nat) : Nat :=
  let moved := roundNiceMinor targetMinor
  let next := if i.delta < 0 then min moved oldMinor else max moved oldMinor
  if required ≤ next then next.toNat
  else
    let floor := ceilNiceMinor required
    if i.delta < 0 then min (max (oldMinor : Int) next).toNat floor else floor

def usdtFollowed (i : FollowInput) : Nat := i.settle i.prices.usdtMinor (i.prices.usdtMinor + i.delta) i.followNeed

def alipayFloor (i : FollowInput) : Nat := max (ceilDiv (i.followNeed * 100) 98) i.usdtFollowed

def alipayLimit (i : FollowInput) (alipay : Nat) : Int := i.usdtFollowed + ((alipay : Int) - i.prices.usdtMinor)

def alipayFollowed (i : FollowInput) (alipay : Nat) : Nat :=
  i.settle alipay (min (alipay + i.delta) (i.alipayLimit alipay)) i.alipayFloor

def agentMinimum (i : FollowInput) : Nat :=
  match i.agentFloorMinor with
  | none => ceilYuanMinor (i.costMinor + agentMinNetMinor)
  | some floor => floor

def agentFollowed (i : FollowInput) (agent : Nat) : Nat :=
  let agentNew := i.settle agent (agent + i.delta) i.agentMinimum
  if i.usdtFollowed ≤ agentNew then max (i.usdtFollowed - niceStepMinor i.usdtFollowed) i.agentMinimum else agentNew

end FollowInput

def followPlan (i : FollowInput) : Option PricePlan :=
  let alipayNew := i.prices.alipayMinor.map i.alipayFollowed
  let agentNew := i.prices.agentMinor.map i.agentFollowed
  if i.usdtFollowed = i.prices.usdtMinor ∧ alipayNew = i.prices.alipayMinor ∧ agentNew = i.prices.agentMinor then none
  else some
    { usdtNew := i.usdtFollowed, alipayNew := alipayNew, agentOld := i.prices.agentMinor, agentNew := agentNew }

/-- The call of `followPlan` in `runPricingGuard`. -/
def followInput (prices : SalePrices) (costMinor baselineMinor floorMinor : Nat) (rules : FloorRules)
    (exempt : Bool) : FollowInput where
  toPlanPriceInput := floorInput prices costMinor floorMinor rules exempt
  baselineMinor := baselineMinor

/-! ## The pass over an item -/

def ItemRow.prices (row : ItemRow) : SalePrices := ⟨row.priceMinor, row.alipayMinor, row.agentPriceMinor⟩

/-- The plan of an item in `runPricingGuard`, from its costs: a cost change is followed, and without a plan for it
the floors are looked at. -/
def guardPlan (settings : Settings) (itemText : Id → Utf16) (cost : ItemRow → Option (Nat × Nat))
    (baseline : Id → Option Nat) (row : ItemRow) : Option (PricePlan × PlanContext) := do
  let (costMinor, supplierMinor) ← cost row
  let floorMinor := parseMinNet settings
  let rules := parseFloorRules settings
  let exempt := rules.exempt.contains (itemText row.id)
  let follow := ((baseline row.id).filter fun (b : Nat) => shouldFollow ((costMinor : Int) - b)).bind fun baselineMinor =>
    followPlan (followInput row.prices costMinor baselineMinor floorMinor rules exempt)
  match follow with
  | some plan => some (plan, ⟨costMinor, floorMinor, some supplierMinor, "pricing_guard.auto_follow"⟩)
  | none => (planPrice (floorInput row.prices costMinor floorMinor rules exempt)).map fun plan =>
      (plan, ⟨costMinor, floorMinor, none, "pricing_guard.auto_raise"⟩)

/-! ## One price -/

section Settle

variable {i : FollowInput} {old required : Nat} {target : Int}

theorem FollowInput.settle_fell (h : i.delta < 0) : i.settle old target required =
    min old (if (required : Int) ≤ min (roundNiceMinor target) old then (roundNiceMinor target).toNat
      else ceilNiceMinor required) := by
  unfold settle
  simp only [if_pos h]
  split
  · omega
  · omega

theorem FollowInput.settle_rose (h : ¬i.delta < 0) : i.settle old target required =
    if (required : Int) ≤ max (roundNiceMinor target) old then (max (roundNiceMinor target) (old : Int)).toNat
      else ceilNiceMinor required := by
  unfold settle
  simp only [if_neg h]

theorem FollowInput.settle_le (h : i.delta < 0) : i.settle old target required ≤ old := by
  rw [settle_fell h]
  exact Nat.min_le_left _ _

theorem FollowInput.settle_low (h : i.delta < 0) (hlow : old < required) : i.settle old target required = old := by
  have hceil := le_ceilNiceMinor required
  rw [settle_fell h, if_neg (by omega)]
  omega

theorem FollowInput.le_settle (h : ¬i.delta < 0) :
    old ≤ i.settle old target required ∧ required ≤ i.settle old target required := by
  have hceil := le_ceilNiceMinor required
  rw [settle_rose h]
  split <;> omega

theorem FollowInput.settle_high (h : ¬i.delta < 0) (hhigh : required ≤ old) :
    (i.settle old target required : Int) = max (roundNiceMinor target) old := by
  rw [settle_rose h, if_pos (by omega)]
  omega

end Settle

/-! ## All three prices -/

def followed (i : FollowInput) : SalePrices := i.prices.after (followPlan i)

theorem followed_eq (i : FollowInput) :
    followed i = ⟨i.usdtFollowed, i.prices.alipayMinor.map i.alipayFollowed, i.prices.agentMinor.map i.agentFollowed⟩ := by
  unfold followed followPlan
  dsimp only
  split
  · next h =>
    rw [h.1, h.2.1, h.2.2]
    rfl
  · show SalePrices.mk i.usdtFollowed (i.prices.alipayMinor.map i.alipayFollowed <|> i.prices.alipayMinor)
      (i.prices.agentMinor.map i.agentFollowed <|> i.prices.agentMinor) = _
    cases i.prices.alipayMinor <;> cases i.prices.agentMinor <;> rfl

/-- The prices after a cost change. The gap of the Alipay price may only grow where no grid price lies between its
floor and the limit. -/
structure CostFollowed (i : FollowInput) (p : SalePrices) : Prop where
  usdtFell : i.delta < 0 → p.usdtMinor ≤ i.prices.usdtMinor
  alipayFell : i.delta < 0 → ∀ old ∈ i.prices.alipayMinor, ∃ new ∈ p.alipayMinor, new ≤ old
  agentFell : i.delta < 0 → ∀ old ∈ i.prices.agentMinor, ∃ new ∈ p.agentMinor, new ≤ old
  usdtRose : 0 < i.delta → i.prices.usdtMinor ≤ p.usdtMinor
  alipayRose : 0 < i.delta → ∀ old ∈ i.prices.alipayMinor, ∃ new ∈ p.alipayMinor, old ≤ new
  agentRose : 0 < i.delta → ∀ old ∈ i.prices.agentMinor, ∃ new ∈ p.agentMinor, old ≤ new
  usdtFloor : 0 < i.delta → i.followNeed ≤ p.usdtMinor
  alipayFloor : 0 < i.delta → ∀ new ∈ p.alipayMinor, i.followNeed * 100 ≤ new * 98 ∧ p.usdtMinor ≤ new
  agentFloor : 0 < i.delta → ∀ new ∈ p.agentMinor, i.agentMinimum ≤ new
  agentBelow : 0 < i.delta → ∀ new ∈ p.agentMinor, new < p.usdtMinor
  gap : ∀ old ∈ i.prices.alipayMinor, ∃ new ∈ p.alipayMinor,
    (new : Int) ≤ p.usdtMinor + ((old : Int) - i.prices.usdtMinor) ∨
      p.usdtMinor + ((old : Int) - i.prices.usdtMinor) <
        ceilNiceMinor (max (ceilDiv (i.followNeed * 100) 98) p.usdtMinor)

/-- The USDT price that a cost change leads to: the nearest grid price, not against the direction and not below the
need. -/
def FollowInput.usdtTarget (i : FollowInput) : Nat :=
  let nearest := roundNiceMinor (i.prices.usdtMinor + i.delta)
  if i.delta < 0 then
    min i.prices.usdtMinor (if (i.followNeed : Int) ≤ min nearest i.prices.usdtMinor then nearest.toNat
      else ceilNiceMinor i.followNeed)
  else if (i.followNeed : Int) ≤ max nearest i.prices.usdtMinor then (max nearest (i.prices.usdtMinor : Int)).toNat
  else ceilNiceMinor i.followNeed

/-- The correction of the agent price does not turn it, its floor is below the USDT price, and the limit of the
Alipay price is not rounded up. -/
structure Orderly (i : FollowInput) : Prop where
  agentFell : i.delta < 0 → ∀ agent ∈ i.prices.agentMinor, i.agentMinimum ≤ agent ∨ agent < i.usdtTarget
  agentRose : 0 < i.delta → ∀ agent ∈ i.prices.agentMinor, agent ≤ i.agentMinimum ∨
    agent + niceStepMinor i.usdtTarget ≤ i.usdtTarget ∨
      max (roundNiceMinor (agent + i.delta)) agent < i.usdtTarget
  agentBelow : 0 < i.delta → i.prices.agentMinor.isSome → i.agentMinimum < i.usdtTarget
  gap : ∀ alipay ∈ i.prices.alipayMinor,
    let limit : Int := i.usdtTarget + ((alipay : Int) - i.prices.usdtMinor)
    limit < ceilNiceMinor (max (ceilDiv (i.followNeed * 100) 98) i.usdtTarget) ∨
      roundNiceMinor (min (alipay + i.delta) limit) ≤ limit ∨ (i.delta < 0 ∧ (alipay : Int) ≤ limit)

section

variable {i : FollowInput}

theorem usdtTarget_eq : i.usdtTarget = i.usdtFollowed := by
  unfold FollowInput.usdtTarget FollowInput.usdtFollowed
  by_cases h : i.delta < 0
  · rw [FollowInput.settle_fell h]
    simp only [if_pos h]
  · rw [FollowInput.settle_rose h]
    simp only [if_neg h]

theorem agentFollowed_fell (h : i.delta < 0) {agent : Nat} :
    i.agentFollowed agent ≤ agent ↔ i.agentMinimum ≤ agent ∨ agent < i.usdtFollowed := by
  have hle : i.settle agent (agent + i.delta) i.agentMinimum ≤ agent := FollowInput.settle_le h
  unfold FollowInput.agentFollowed
  dsimp only
  by_cases hlow : agent < i.agentMinimum
  · rw [FollowInput.settle_low h hlow]
    split <;> omega
  · split <;> omega

theorem agentFollowed_rose (h : ¬i.delta < 0) {agent : Nat} : agent ≤ i.agentFollowed agent ↔ agent ≤ i.agentMinimum ∨
      agent + niceStepMinor i.usdtFollowed ≤ i.usdtFollowed ∨
        max (roundNiceMinor (agent + i.delta)) agent < i.usdtFollowed := by
  have hle : agent ≤ i.settle agent (agent + i.delta) i.agentMinimum ∧
      i.agentMinimum ≤ i.settle agent (agent + i.delta) i.agentMinimum := FollowInput.le_settle h
  unfold FollowInput.agentFollowed
  dsimp only
  by_cases hhigh : i.agentMinimum ≤ agent
  · have hnext : (i.settle agent (agent + i.delta) i.agentMinimum : Int) = max (roundNiceMinor (agent + i.delta)) agent :=
      FollowInput.settle_high h hhigh
    split <;> omega
  · split <;> omega

theorem agentFollowed_floor (h : ¬i.delta < 0) (agent : Nat) : i.agentMinimum ≤ i.agentFollowed agent := by
  have hle : agent ≤ i.settle agent (agent + i.delta) i.agentMinimum ∧
      i.agentMinimum ≤ i.settle agent (agent + i.delta) i.agentMinimum := FollowInput.le_settle h
  unfold FollowInput.agentFollowed
  dsimp only
  split <;> omega

theorem agentFollowed_below (h : ¬i.delta < 0) (hpos : 0 < i.usdtFollowed) (agent : Nat) :
    i.agentFollowed agent < i.usdtFollowed ↔ i.agentMinimum < i.usdtFollowed := by
  have hle : agent ≤ i.settle agent (agent + i.delta) i.agentMinimum ∧
      i.agentMinimum ≤ i.settle agent (agent + i.delta) i.agentMinimum := FollowInput.le_settle h
  have hstep := niceStepMinor_pos i.usdtFollowed
  unfold FollowInput.agentFollowed
  dsimp only
  split <;> omega

theorem alipayFollowed_gap {alipay : Nat} :
    (i.alipayFollowed alipay : Int) ≤ i.alipayLimit alipay ∨ i.alipayLimit alipay < ceilNiceMinor i.alipayFloor ↔
      i.alipayLimit alipay < ceilNiceMinor i.alipayFloor ∨
        roundNiceMinor (min (alipay + i.delta) (i.alipayLimit alipay)) ≤ i.alipayLimit alipay ∨
          (i.delta < 0 ∧ (alipay : Int) ≤ i.alipayLimit alipay) := by
  have hceil := le_ceilNiceMinor i.alipayFloor
  unfold FollowInput.alipayFollowed
  by_cases h : i.delta < 0
  · rw [FollowInput.settle_fell h]
    split <;> omega
  · -- the USDT price has not fallen, so that the limit is not below the old price
    have husdt : i.prices.usdtMinor ≤ i.settle i.prices.usdtMinor (i.prices.usdtMinor + i.delta) i.followNeed :=
      (FollowInput.le_settle h).1
    have hlimit : (alipay : Int) ≤ i.alipayLimit alipay := by
      unfold FollowInput.alipayLimit FollowInput.usdtFollowed
      omega
    rw [FollowInput.settle_rose h]
    split <;> omega

theorem alipayFloor_le {alipay : Nat} (h : i.alipayFloor ≤ alipay) :
    i.followNeed * 100 ≤ alipay * 98 ∧ i.usdtFollowed ≤ alipay := by
  have hboth := max_le_iff.mp (show max _ _ ≤ alipay from h)
  exact ⟨(ceilDiv_le_iff (by decide)).mp hboth.1, hboth.2⟩

theorem followed_orderly (hpos : 0 < i.delta → 0 < i.usdtFollowed) : CostFollowed i (followed i) ↔ Orderly i := by
  rw [followed_eq]
  constructor
  · intro h
    refine ⟨fun hd agent hagent => ?_, fun hd agent hagent => ?_, fun hd hsome => ?_, fun alipay halipay => ?_⟩
    · obtain ⟨new, hnew, hle⟩ := h.agentFell hd agent hagent
      rw [usdtTarget_eq]
      rw [hagent] at hnew
      obtain rfl : i.agentFollowed agent = new := some.inj hnew
      exact (agentFollowed_fell hd).mp hle
    · obtain ⟨new, hnew, hle⟩ := h.agentRose hd agent hagent
      rw [usdtTarget_eq]
      rw [hagent] at hnew
      obtain rfl : i.agentFollowed agent = new := some.inj hnew
      exact (agentFollowed_rose (by omega)).mp hle
    · obtain ⟨agent, hagent⟩ := isSome_iff_exists.mp hsome
      rw [usdtTarget_eq]
      exact (agentFollowed_below (by omega) (hpos hd) agent).mp (h.agentBelow hd _ (by rw [hagent]; rfl))
    · obtain ⟨new, hnew, hgap⟩ := h.gap alipay halipay
      rw [halipay] at hnew
      obtain rfl : i.alipayFollowed alipay = new := some.inj hnew
      dsimp only
      rw [usdtTarget_eq]
      exact (alipayFollowed_gap).mp hgap
  · intro h
    have hagent : ∀ {Q : Nat → Nat → Prop}, (∀ old ∈ i.prices.agentMinor, Q old (i.agentFollowed old)) →
        ∀ old ∈ i.prices.agentMinor, ∃ new ∈ i.prices.agentMinor.map i.agentFollowed, Q old new := by
      intro Q hq old hold
      exact ⟨_, by rw [hold]; rfl, hq old hold⟩
    have halipay : ∀ {Q : Nat → Nat → Prop}, (∀ old ∈ i.prices.alipayMinor, Q old (i.alipayFollowed old)) →
        ∀ old ∈ i.prices.alipayMinor, ∃ new ∈ i.prices.alipayMinor.map i.alipayFollowed, Q old new := by
      intro Q hq old hold
      exact ⟨_, by rw [hold]; rfl, hq old hold⟩
    have hrose : 0 < i.delta → ¬i.delta < 0 := fun hd => not_lt.mpr hd.le
    refine ⟨FollowInput.settle_le, fun hd => halipay fun old _ => FollowInput.settle_le hd,
      fun hd => hagent fun old hold => ?_, fun hd => (FollowInput.le_settle (hrose hd)).1,
      fun hd => halipay fun old _ => (FollowInput.le_settle (hrose hd)).1, fun hd => hagent fun old hold => ?_,
      fun hd => (FollowInput.le_settle (hrose hd)).2, fun hd new hnew => ?_, fun hd new hnew => ?_,
      fun hd new hnew => ?_, halipay fun old hold => ?_⟩
    · rw [agentFollowed_fell hd, ← usdtTarget_eq]
      exact h.agentFell hd old hold
    · rw [agentFollowed_rose (hrose hd), ← usdtTarget_eq]
      exact h.agentRose hd old hold
    · obtain ⟨old, -, rfl⟩ := map_eq_some_iff.mp hnew
      exact alipayFloor_le (FollowInput.le_settle (hrose hd)).2
    · obtain ⟨old, -, rfl⟩ := map_eq_some_iff.mp hnew
      exact agentFollowed_floor (hrose hd) old
    · obtain ⟨old, hold, rfl⟩ := map_eq_some_iff.mp hnew
      refine (agentFollowed_below (hrose hd) (hpos hd) old).mpr ?_
      rw [← usdtTarget_eq]
      exact h.agentBelow hd (by rw [hold]; rfl)
    · have hgap := h.gap old hold
      dsimp only at hgap
      rw [usdtTarget_eq] at hgap
      exact (alipayFollowed_gap).mpr hgap

end

theorem cost_le_retailNeedMinor (costMinor floorMinor : Nat) (rules : FloorRules) :
    costMinor ≤ retailNeedMinor costMinor floorMinor rules := by
  unfold retailNeedMinor
  dsimp only
  split <;> omega

theorem cost_le_followNeed (prices : SalePrices) (costMinor baselineMinor floorMinor : Nat) (rules : FloorRules)
    (exempt : Bool) :
    costMinor ≤ (followInput prices costMinor baselineMinor floorMinor rules exempt).followNeed := by
  have hneed : costMinor ≤ (followInput prices costMinor baselineMinor floorMinor rules exempt).needMinor.getD
      (costMinor + floorMinor) := by
    cases exempt with
    | true => exact Nat.le_add_right _ _
    | false => exact cost_le_retailNeedMinor costMinor floorMinor rules
  unfold FollowInput.followNeed
  dsimp only
  split
  · exact hneed.trans (Nat.le_max_left _ _)
  · exact hneed

/-- A cost change is followed as promised exactly if the item's prices are orderly. -/
theorem followPlan_orderly (settings : Settings) (prices : SalePrices) (costMinor baselineMinor : Nat)
    (exempt : Bool) :
    let i := followInput prices costMinor baselineMinor (parseMinNet settings) (parseFloorRules settings) exempt
    CostFollowed i (prices.after (followPlan i)) ↔ Orderly i := by
  intro i
  refine followed_orderly fun hd => ?_
  have hcost := cost_le_followNeed prices costMinor baselineMinor (parseMinNet settings) (parseFloorRules settings)
    exempt
  have hneed : i.followNeed ≤ i.usdtFollowed := (FollowInput.le_settle (by omega)).2
  have hdelta : (costMinor : Int) - baselineMinor = i.delta := rfl
  have hle : costMinor ≤ i.followNeed := hcost
  omega

def roundedUpLimit : SalePrices := ⟨11900, some 12700, none⟩

/-- Its cost falls by two yuan: USDT goes to 115, and Alipay to 125 although the gap was eight. -/
theorem roundedUpLimit_gap :
    ¬CostFollowed (followInput roundedUpLimit 9800 10000 defaultMinNetMinor defaultFloorRules false)
      (roundedUpLimit.after
        (followPlan (followInput roundedUpLimit 9800 10000 defaultMinNetMinor defaultFloorRules false))) := by
  intro h
  obtain ⟨new, hnew, hgap⟩ := h.gap 12700 (by decide)
  have hprices : (roundedUpLimit.after
      (followPlan (followInput roundedUpLimit 9800 10000 defaultMinNetMinor defaultFloorRules false))) =
        ⟨11500, some 12500, none⟩ := by decide
  rw [hprices] at hnew hgap
  obtain rfl : 12500 = new := some.inj hnew
  revert hgap
  decide

end Gmshop
