import Mathlib
import GmshopEdge.Catalog.PricingGuard
import GmshopEdge.Lib.Decimal

/-!
# Raising prices to their floors

`parseFloorRules`, the price grid and `planPrice` of `ops-automation/server/pricing-guard.ts`. Prices are numbers of
minor units; quotients of them are rounded as written, for they stay below 2⁵³.

`planPrice` asks for the 102 percent of the USDT price only when it plans; an Alipay price below them alone is no
reason to plan.

    every floor holds after the plan  ↔  some other floor was violated, or Alipay was at 102 percent
      (planPrice_meets_floors)
-/

namespace Gmshop

open Utf16 Json Option

/-! ## Settings -/

/-- What `loadSettings` returns: parsed values under their keys. -/
abbrev Settings := String → Option Value

structure FloorRules where
  agentMarginBps : Nat
  agentMinNetMinor : Nat
  retailMarginBps : Nat
  retailMarginFromMinor : Nat
  exempt : List Utf16

def defaultFloorRules : FloorRules where
  agentMarginBps := 300
  agentMinNetMinor := 300
  retailMarginBps := 0
  retailMarginFromMinor := 30000
  exempt := []

def defaultMinNetMinor : Nat := 300

/-- `z.number().int().min(0).max(max)`. -/
def zNatMax (max : Nat) : Value → Option Nat
  | .num n => n.natural.filter (· ≤ max)
  | _ => none

/-- `z.array(z.string())`. -/
def zStrings : Value → Option (List Utf16)
  | .arr elements => elements.mapM fun
    | .str s => some s
    | _ => none
  | _ => none

def parseFloorRules (settings : Settings) : FloorRules :=
  let int (key : String) (fallback : Nat) : Nat := ((settings key).bind (zNatMax 100000000)).getD fallback
  { agentMarginBps := int "pricing.agent_margin_bps" defaultFloorRules.agentMarginBps
    agentMinNetMinor := int "pricing.agent_min_net_minor" defaultFloorRules.agentMinNetMinor
    retailMarginBps := int "pricing.retail_margin_bps" defaultFloorRules.retailMarginBps
    retailMarginFromMinor := int "pricing.retail_margin_from_minor" defaultFloorRules.retailMarginFromMinor
    exempt := ((settings "pricing.floor_exempt_items").bind zStrings).getD defaultFloorRules.exempt }

/-- `floorMinor` of `runPricingGuard`; an integer has to be safe. -/
def parseMinNet (settings : Settings) : Nat :=
  ((settings "pricing.min_net_minor").bind (zNatMax (2 ^ 53 - 1))).getD defaultMinNetMinor

/-! ## Floors -/

def ceilDiv (a b : Nat) : Nat := (a + b - 1) / b

def withBps (minor bps : Nat) : Nat := ceilDiv (minor * (10000 + bps)) 10000

def retailNeedMinor (costMinor floorMinor : Nat) (rules : FloorRules) : Nat :=
  let flat := costMinor + floorMinor
  if rules.retailMarginFromMinor ≤ costMinor then max flat (withBps costMinor rules.retailMarginBps) else flat

def agentFloorMinor (costMinor : Nat) (rules : FloorRules) : Nat :=
  max (costMinor + rules.agentMinNetMinor) (withBps costMinor rules.agentMarginBps)

theorem ceilDiv_le_iff {a b c : Nat} (hb : 0 < b) : ceilDiv a b ≤ c ↔ a ≤ c * b := by
  unfold ceilDiv
  rw [← Nat.ceilDiv_eq_add_pred_div, ceilDiv_le_iff_le_mul hb, Nat.mul_comm]

theorem le_ceilDiv_mul (a : Nat) {b : Nat} (hb : 0 < b) : a ≤ ceilDiv a b * b := (ceilDiv_le_iff hb).mp le_rfl

/-! ## The grid -/

def niceStepMinor (minor : Nat) : Nat := if minor < 10000 then 100 else if minor < 50000 then 500 else 1000

def ceilNiceMinor (minor : Nat) : Nat :=
  let step := niceStepMinor minor
  ceilDiv minor step * step

def OnGrid (minor : Nat) : Prop := niceStepMinor minor ∣ minor

theorem niceStepMinor_pos (minor : Nat) : 0 < niceStepMinor minor := by
  unfold niceStepMinor
  split_ifs <;> decide

theorem le_ceilNiceMinor (minor : Nat) : minor ≤ ceilNiceMinor minor := le_ceilDiv_mul minor (niceStepMinor_pos minor)

theorem ceilNiceMinor_onGrid (minor : Nat) : OnGrid (ceilNiceMinor minor) := by
  unfold OnGrid ceilNiceMinor ceilDiv
  have hstep : niceStepMinor minor = 100 ∧ minor < 10000 ∨ niceStepMinor minor = 500 ∧ 10000 ≤ minor ∧ minor < 50000 ∨
      niceStepMinor minor = 1000 ∧ 50000 ≤ minor := by
    unfold niceStepMinor
    split_ifs <;> omega
  rcases hstep with ⟨hs, hm⟩ | ⟨hs, hlow, hhigh⟩ | ⟨hs, hm⟩
  · simp only [hs]
    unfold niceStepMinor
    split_ifs <;> omega
  · simp only [hs]
    unfold niceStepMinor
    split_ifs <;> omega
  · simp only [hs]
    unfold niceStepMinor
    split_ifs <;> omega

theorem ceilNiceMinor_le {minor p : Nat} (hgrid : OnGrid p) (h : minor ≤ p) : ceilNiceMinor minor ≤ p := by
  -- the step of the smaller price divides the larger one
  have hdvd : niceStepMinor minor ∣ p := by
    unfold OnGrid niceStepMinor at hgrid
    unfold niceStepMinor
    split_ifs at hgrid ⊢ <;> omega
  obtain ⟨k, rfl⟩ := hdvd
  have hk : ceilDiv minor (niceStepMinor minor) ≤ k := by
    rw [ceilDiv_le_iff (niceStepMinor_pos minor), Nat.mul_comm]
    exact h
  unfold ceilNiceMinor
  rw [Nat.mul_comm]
  exact Nat.mul_le_mul_left _ hk

/-! ## The plan -/

structure SalePrices where
  usdtMinor : Nat
  alipayMinor : Option Nat
  agentMinor : Option Nat
  deriving DecidableEq

/-- The argument of `planPrice`. -/
structure PlanPriceInput where
  prices : SalePrices
  costMinor : Nat
  floorMinor : Nat
  needMinor : Option Nat := none
  agentFloorMinor : Option Nat := none

namespace PlanPriceInput

/-- The agent price, raised to its floor; `none` without a price or a floor. -/
def agentNew (i : PlanPriceInput) : Option Nat :=
  match i.prices.agentMinor, i.agentFloorMinor with
  | some agent, some floor => some (max agent (if floor ≤ agent then agent else ceilNiceMinor floor))
  | _, _ => none

def need (i : PlanPriceInput) : Nat :=
  let need := i.needMinor.getD (i.costMinor + i.floorMinor)
  match i.agentNew with
  | some agent => max need (agent + niceStepMinor agent)
  | none => need

def usdtLow (i : PlanPriceInput) : Bool := i.prices.usdtMinor < i.need

def alipayLow (i : PlanPriceInput) : Bool := i.prices.alipayMinor.any fun alipay => alipay * 98 < i.need * 100

def agentLow (i : PlanPriceInput) : Bool := i.agentNew.isSome && i.agentNew != i.prices.agentMinor

def usdtNew (i : PlanPriceInput) : Nat :=
  if i.usdtLow then max i.prices.usdtMinor (ceilNiceMinor i.need) else i.prices.usdtMinor

def alipayRequired (i : PlanPriceInput) : Nat := max (ceilDiv (i.need * 100) 98) (ceilDiv (i.usdtNew * 102) 100)

def alipayNew (i : PlanPriceInput) (alipay : Nat) : Nat :=
  if i.alipayRequired ≤ alipay then alipay else max alipay (ceilNiceMinor i.alipayRequired)

end PlanPriceInput

def planPrice (i : PlanPriceInput) : Option PricePlan :=
  if !i.usdtLow && !i.alipayLow && !i.agentLow then none
  else some
    { usdtNew := i.usdtNew, alipayNew := i.prices.alipayMinor.map i.alipayNew
      agentOld := if i.agentNew.isSome then i.prices.agentMinor else none, agentNew := i.agentNew }

def SalePrices.after (prices : SalePrices) : Option PricePlan → SalePrices
  | none => prices
  | some plan =>
    { usdtMinor := plan.usdtNew, alipayMinor := plan.alipayNew <|> prices.alipayMinor
      agentMinor := plan.agentNew <|> prices.agentMinor }

/-- The call of `planPrice` in `runPricingGuard`; `exempt` is whether the item is one of the rules' exempt items. -/
def floorInput (prices : SalePrices) (costMinor floorMinor : Nat) (rules : FloorRules) (exempt : Bool) :
    PlanPriceInput where
  prices := prices
  costMinor := costMinor
  floorMinor := floorMinor
  needMinor := if exempt then none else some (retailNeedMinor costMinor floorMinor rules)
  agentFloorMinor := if exempt then none else some (agentFloorMinor costMinor rules)

/-! ## What holds after the plan -/

section

variable {i : PlanPriceInput}

theorem PlanPriceInput.agentNew_some {agent : Nat} (h : i.agentNew = some agent) :
    ∃ old floor, i.prices.agentMinor = some old ∧ i.agentFloorMinor = some floor ∧ floor ≤ agent ∧ old ≤ agent ∧
      (floor ≤ old → agent = old) ∧ (agent = old → floor ≤ old) := by
  unfold agentNew at h
  split at h
  · next old floor hold hfloor =>
    have hceil := le_ceilNiceMinor floor
    obtain rfl := some.inj h
    refine ⟨old, floor, hold, hfloor, ?_⟩
    split
    · omega
    · omega
  · cases h

theorem PlanPriceInput.need_le {n : Nat} : i.need ≤ n ↔
    i.needMinor.getD (i.costMinor + i.floorMinor) ≤ n ∧ ∀ agent ∈ i.agentNew, agent + niceStepMinor agent ≤ n := by
  unfold need
  cases h : i.agentNew with
  | none => simp
  | some agent => simp

theorem PlanPriceInput.usdtNew_spec : i.need ≤ i.usdtNew ∧ i.prices.usdtMinor ≤ i.usdtNew ∧
    (i.prices.usdtMinor < i.usdtNew → i.usdtNew = ceilNiceMinor i.need) := by
  have hceil := le_ceilNiceMinor i.need
  unfold usdtNew usdtLow
  split
  · next h =>
    omega
  · next h =>
    have hlow := of_decide_eq_false (Bool.eq_false_of_not_eq_true h)
    omega

theorem PlanPriceInput.alipayNew_spec (alipay : Nat) : alipay ≤ i.alipayNew alipay ∧
    i.need * 100 ≤ i.alipayNew alipay * 98 ∧ i.usdtNew * 102 ≤ i.alipayNew alipay * 100 := by
  have hrequired : alipay ≤ i.alipayNew alipay ∧ i.alipayRequired ≤ i.alipayNew alipay := by
    have hceil := le_ceilNiceMinor i.alipayRequired
    unfold alipayNew
    split <;> omega
  have hboth := max_le_iff.mp (show max _ _ ≤ i.alipayNew alipay from hrequired.2)
  exact ⟨hrequired.1, (ceilDiv_le_iff (by decide)).mp hboth.1, (ceilDiv_le_iff (by decide)).mp hboth.2⟩

def planned (i : PlanPriceInput) : SalePrices := i.prices.after (planPrice i)

theorem planPrice_none : planPrice i = none ↔ i.usdtLow = false ∧ i.alipayLow = false ∧ i.agentLow = false := by
  unfold planPrice
  split
  · next h =>
    simp only [Bool.and_eq_true, Bool.not_eq_true', and_assoc] at h
    exact ⟨fun _ => h, fun _ => rfl⟩
  · next h =>
    simp only [Bool.and_eq_true, Bool.not_eq_true', and_assoc] at h
    exact ⟨fun hnone => absurd hnone (by simp), fun hlow => absurd hlow h⟩

theorem planned_usdt : (planned i).usdtMinor = i.usdtNew := by
  unfold planned
  cases hplan : planPrice i with
  | none =>
    have hlow := ((planPrice_none).mp hplan).1
    show i.prices.usdtMinor = i.usdtNew
    rw [PlanPriceInput.usdtNew, hlow, if_neg Bool.false_ne_true]
  | some plan =>
    unfold planPrice at hplan
    split at hplan
    · cases hplan
    · obtain rfl := some.inj hplan
      rfl

theorem planned_agent : (planned i).agentMinor = (i.agentNew <|> i.prices.agentMinor) := by
  unfold planned
  cases hplan : planPrice i with
  | none =>
    have hlow := ((planPrice_none).mp hplan).2.2
    unfold PlanPriceInput.agentLow at hlow
    show i.prices.agentMinor = _
    cases hnew : i.agentNew with
    | none => rfl
    | some agent =>
      rw [hnew] at hlow
      have hsame : some agent = i.prices.agentMinor := by simpa using hlow
      exact hsame.symm
  | some plan =>
    unfold planPrice at hplan
    split at hplan
    · cases hplan
    · obtain rfl := some.inj hplan
      rfl

theorem planned_agentNew {agent floor : Nat} (h : (planned i).agentMinor = some agent)
    (hfloor : i.agentFloorMinor = some floor) : i.agentNew = some agent := by
  rw [planned_agent] at h
  cases hnew : i.agentNew with
  | some new =>
    rw [hnew] at h
    exact h
  | none =>
    -- a price with a floor is raised
    rw [hnew] at h
    have hold : i.prices.agentMinor = some agent := h
    unfold PlanPriceInput.agentNew at hnew
    rw [hold, hfloor] at hnew
    cases hnew

theorem planned_alipay_none (h : planPrice i = none) : (planned i).alipayMinor = i.prices.alipayMinor := by
  unfold planned
  rw [h]
  rfl

theorem planned_alipay_some {plan : PricePlan} (h : planPrice i = some plan) :
    (planned i).alipayMinor = i.prices.alipayMinor.map i.alipayNew := by
  unfold planned
  rw [h]
  unfold planPrice at h
  split at h
  · cases h
  · obtain rfl := some.inj h
    show (i.prices.alipayMinor.map i.alipayNew <|> i.prices.alipayMinor) = _
    cases i.prices.alipayMinor <;> rfl

theorem planned_alipay {alipay : Nat} (h : (planned i).alipayMinor = some alipay) :
    i.need * 100 ≤ alipay * 98 ∧ ∃ old, i.prices.alipayMinor = some old ∧ old ≤ alipay := by
  cases hplan : planPrice i with
  | none =>
    rw [planned_alipay_none hplan] at h
    have hlow := ((planPrice_none).mp hplan).2.1
    unfold PlanPriceInput.alipayLow at hlow
    rw [h, any_some, decide_eq_false_iff_not, not_lt] at hlow
    exact ⟨hlow, alipay, h, le_rfl⟩
  | some plan =>
    rw [planned_alipay_some hplan, map_eq_some_iff] at h
    obtain ⟨old, hold, rfl⟩ := h
    have hspec := PlanPriceInput.alipayNew_spec (i := i) old
    exact ⟨hspec.2.1, old, hold, hspec.1⟩

theorem planPrice_again : planPrice { i with prices := planned i } = none := by
  -- the agent price, and with it the need, stay
  have hagent : PlanPriceInput.agentNew { i with prices := planned i } = i.agentNew := by
    cases hnew : i.agentNew with
    | none =>
      have hsame : (planned i).agentMinor = i.prices.agentMinor := by
        rw [planned_agent, hnew]
        rfl
      unfold PlanPriceInput.agentNew at hnew ⊢
      dsimp only
      rw [hsame]
      exact hnew
    | some agent =>
      obtain ⟨old, floor, -, hfloor, hmet, -⟩ := PlanPriceInput.agentNew_some hnew
      have hsame : (planned i).agentMinor = some agent := by
        rw [planned_agent, hnew]
        rfl
      unfold PlanPriceInput.agentNew
      dsimp only
      rw [hsame, hfloor]
      dsimp only
      rw [if_pos hmet, max_self]
  have hneed : PlanPriceInput.need { i with prices := planned i } = i.need := by
    unfold PlanPriceInput.need
    rw [hagent]
  rw [planPrice_none]
  refine ⟨?_, ?_, ?_⟩
  · have hmet := PlanPriceInput.usdtNew_spec (i := i)
    unfold PlanPriceInput.usdtLow
    rw [hneed]
    dsimp only
    rw [planned_usdt, decide_eq_false_iff_not, not_lt]
    exact hmet.1
  · unfold PlanPriceInput.alipayLow
    rw [hneed]
    dsimp only
    cases halipay : (planned i).alipayMinor with
    | none => rfl
    | some alipay =>
      rw [any_some, decide_eq_false_iff_not, not_lt]
      exact (planned_alipay halipay).1
  · unfold PlanPriceInput.agentLow
    rw [hagent]
    dsimp only
    rw [planned_agent]
    cases i.agentNew with
    | none => rfl
    | some agent => simp

end

/-- The prices after the plan: they meet the floors, none is lower than before, a raised USDT price is the smallest
grid price that suffices, and nothing is left to plan. -/
structure FloorsMet (i : PlanPriceInput) (p : SalePrices) : Prop where
  usdt : i.needMinor.getD (i.costMinor + i.floorMinor) ≤ p.usdtMinor
  alipayNet : ∀ alipay ∈ p.alipayMinor, i.need * 100 ≤ alipay * 98
  alipayOver : ∀ alipay ∈ p.alipayMinor, p.usdtMinor * 102 ≤ alipay * 100
  agentFloor : ∀ agent ∈ p.agentMinor, ∀ floor ∈ i.agentFloorMinor, floor ≤ agent
  agentBelow : ∀ agent ∈ p.agentMinor, i.agentFloorMinor.isSome → agent + niceStepMinor agent ≤ p.usdtMinor
  usdtKept : i.prices.usdtMinor ≤ p.usdtMinor
  alipayKept : ∀ old ∈ i.prices.alipayMinor, ∃ alipay ∈ p.alipayMinor, old ≤ alipay
  agentKept : ∀ old ∈ i.prices.agentMinor, ∃ agent ∈ p.agentMinor, old ≤ agent
  least : i.prices.usdtMinor < p.usdtMinor → OnGrid p.usdtMinor ∧
    ∀ price, OnGrid price → i.needMinor.getD (i.costMinor + i.floorMinor) ≤ price →
      (∀ agent ∈ p.agentMinor, i.agentFloorMinor.isSome → agent + niceStepMinor agent ≤ price) → p.usdtMinor ≤ price
  again : planPrice { i with prices := p } = none

/-- One of the floors that `planPrice` looks for is violated. -/
def BelowFloor (i : PlanPriceInput) : Prop :=
  i.prices.usdtMinor < i.need ∨ (∃ alipay ∈ i.prices.alipayMinor, alipay * 98 < i.need * 100) ∨
    ∃ agent ∈ i.prices.agentMinor, ∃ floor ∈ i.agentFloorMinor, agent < floor

section

variable {i : PlanPriceInput}

theorem belowFloor_iff : BelowFloor i ↔ planPrice i ≠ none := by
  have hagent : (∃ agent ∈ i.prices.agentMinor, ∃ floor ∈ i.agentFloorMinor, agent < floor) ↔ i.agentLow = true := by
    unfold PlanPriceInput.agentLow
    constructor
    · rintro ⟨agent, hold, floor, hfloor, hlt⟩
      have hnew : ∃ new, i.agentNew = some new := by
        unfold PlanPriceInput.agentNew
        rw [hold, hfloor]
        exact ⟨_, rfl⟩
      obtain ⟨new, hnew⟩ := hnew
      obtain ⟨old, floor', hold', hfloor', -, -, -, hsame⟩ := PlanPriceInput.agentNew_some hnew
      obtain rfl : agent = old := some.inj (hold.symm.trans hold')
      obtain rfl : floor = floor' := some.inj (hfloor.symm.trans hfloor')
      rw [hnew, hold', isSome_some, Bool.true_and, bne_iff_ne]
      intro heq
      exact absurd (hsame (some.inj heq)) (not_le.mpr hlt)
    · intro h
      rw [Bool.and_eq_true, bne_iff_ne, isSome_iff_exists] at h
      obtain ⟨⟨new, hnew⟩, hne⟩ := h
      obtain ⟨old, floor, hold, hfloor, -, -, hsame, -⟩ := PlanPriceInput.agentNew_some hnew
      refine ⟨old, hold, floor, hfloor, not_le.mp fun hle => hne ?_⟩
      rw [hnew, hold, hsame hle]
  have halipay : (∃ alipay ∈ i.prices.alipayMinor, alipay * 98 < i.need * 100) ↔ i.alipayLow = true := by
    unfold PlanPriceInput.alipayLow
    cases i.prices.alipayMinor <;> simp
  have husdt : i.prices.usdtMinor < i.need ↔ i.usdtLow = true := by
    unfold PlanPriceInput.usdtLow
    rw [decide_eq_true_iff]
  unfold BelowFloor
  rw [hagent, halipay, husdt, Ne, planPrice_none]
  cases i.usdtLow <;> cases i.alipayLow <;> cases i.agentLow <;> simp

theorem planned_floorsMet (h : ∀ alipay ∈ (planned i).alipayMinor, i.usdtNew * 102 ≤ alipay * 100) :
    FloorsMet i (planned i) := by
  have husdt := PlanPriceInput.usdtNew_spec (i := i)
  have hneed := PlanPriceInput.need_le.mp husdt.1
  have hbelow : ∀ agent ∈ (planned i).agentMinor, i.agentFloorMinor.isSome → i.agentNew = some agent := by
    intro agent hagent hfloor
    obtain ⟨floor, hfloor⟩ := isSome_iff_exists.mp hfloor
    exact planned_agentNew hagent hfloor
  refine ⟨?_, fun alipay ha => (planned_alipay ha).1, ?_, ?_, ?_, ?_, ?_, ?_, ?_, planPrice_again⟩
  · rw [planned_usdt]
    exact hneed.1
  · rw [planned_usdt]
    exact h
  · intro agent hagent floor hfloor
    obtain ⟨old, floor', -, hfloor', hmet, -⟩ := PlanPriceInput.agentNew_some (planned_agentNew hagent hfloor)
    obtain rfl : floor = floor' := some.inj (hfloor.symm.trans hfloor')
    exact hmet
  · intro agent hagent hfloor
    rw [planned_usdt]
    exact hneed.2 agent (hbelow agent hagent hfloor)
  · rw [planned_usdt]
    exact husdt.2.1
  · intro old hold
    cases hplan : planPrice i with
    | none => exact ⟨old, by rw [planned_alipay_none hplan]; exact hold, le_rfl⟩
    | some plan =>
      refine ⟨i.alipayNew old, ?_, (PlanPriceInput.alipayNew_spec old).1⟩
      rw [planned_alipay_some hplan, hold]
      rfl
  · intro old hold
    rw [planned_agent]
    cases hnew : i.agentNew with
    | none => exact ⟨old, hold, le_rfl⟩
    | some agent =>
      obtain ⟨old', -, hold', -, -, hle, -⟩ := PlanPriceInput.agentNew_some hnew
      obtain rfl : old = old' := some.inj (hold.symm.trans hold')
      exact ⟨agent, rfl, hle⟩
  · rw [planned_usdt]
    intro hraised
    have hceil := husdt.2.2 hraised
    refine ⟨hceil ▸ ceilNiceMinor_onGrid _, fun price hgrid hretail hagents => ?_⟩
    rw [hceil]
    refine ceilNiceMinor_le hgrid (PlanPriceInput.need_le.mpr ⟨hretail, fun agent hnew => ?_⟩)
    obtain ⟨old, floor, -, hfloor, -⟩ := PlanPriceInput.agentNew_some hnew
    have hafter : (planned i).agentMinor = some agent := by
      rw [planned_agent, hnew]
      rfl
    exact hagents agent hafter (by rw [hfloor]; rfl)

theorem planned_floorsMet_iff : FloorsMet i (planned i) ↔
    ∀ alipay ∈ i.prices.alipayMinor, i.prices.usdtMinor * 102 ≤ alipay * 100 ∨ BelowFloor i := by
  rw [belowFloor_iff]
  constructor
  · intro h alipay halipay
    by_cases hplan : planPrice i = none
    · left
      have hover := h.alipayOver alipay (by rw [planned_alipay_none hplan]; exact halipay)
      have hkept : (planned i).usdtMinor = i.prices.usdtMinor := by
        unfold planned
        rw [hplan]
        rfl
      rw [← hkept]
      exact hover
    · exact .inr hplan
  · intro h
    refine planned_floorsMet fun alipay halipay => ?_
    cases hplan : planPrice i with
    | none =>
      rw [planned_alipay_none hplan] at halipay
      rcases h alipay halipay with hover | hlow
      · have hkept : i.usdtNew = i.prices.usdtMinor := by
          rw [PlanPriceInput.usdtNew, (planPrice_none.mp hplan).1, if_neg Bool.false_ne_true]
        rw [hkept]
        exact hover
      · exact absurd hplan hlow
    | some plan =>
      rw [planned_alipay_some hplan] at halipay
      obtain ⟨old, -, rfl⟩ := map_eq_some_iff.mp halipay
      exact (PlanPriceInput.alipayNew_spec old).2.2

end

def cheapOnAlipay : SalePrices := ⟨20000, some 20100, none⟩

end Gmshop
