import GmshopEdge.Entitlements.Ledger

/-!
# Splitting a refund

`promotionRefundSplit` (`promotions/server/refunds.ts`) divides a refund between the customer's
cash balance, the reward balance and the external payment by the largest remainder method, and
`convertMinorAmount` (`exchange-rates/rates.ts`) converts the external part into the payment's
currency, rounding up.
-/

namespace Gmshop

open Sql Stmt

/-! ## The largest remainder method -/

/-- One of the three parts of a refund while the spare cents are handed out. -/
structure SplitPart where
  index : Nat
  amount : Int
  remainder : Int

def SplitPart.before (a b : SplitPart) : Bool :=
  if a.remainder = b.remainder then decide (a.index ≤ b.index) else decide (b.remainder < a.remainder)

def handOutCents : Int → List SplitPart → List SplitPart
  | _, [] => []
  | cents, p :: ps =>
    if cents = 0 then p :: ps
    else { p with amount := p.amount + 1 } :: handOutCents (cents - 1) ps

/-- The parts of `delta` in proportion to `weights`, whose total is `remaining`. -/
def splitParts (weights : List Int) (delta remaining : Int) : List SplitPart :=
  let parts := weights.zipIdx.map fun w =>
    { index := w.2, amount := (w.1 * delta).tdiv remaining, remainder := (w.1 * delta).tmod remaining : SplitPart }
  let cents := delta - (parts.map (·.amount)).sum
  handOutCents cents (List.insertionSort (fun a b => SplitPart.before a b = true) parts)

def partAmount (parts : List SplitPart) (index : Nat) : Int :=
  ((parts.find? fun p => p.index == index).map (·.amount)).getD 0

/-! ## `promotionRefundSplit` -/

structure SplitOrder where
  id : Id
  status : ShopOrderStatus
  version : Nat
  paidMinor : Minor
  referralRewardMinor : Minor
  hold : Option OrderBalanceHold

structure PromotionSplit where
  order : SplitOrder
  cash : Int
  reward : Int
  external : Int
  reversal : Int
  after : Int
  allocated : Bool

def splitOrder (s : Db) (orderId : Id) : Option SplitOrder :=
  (s.orders.get? orderId).map fun o =>
    { id := o.id, status := o.status, version := o.version, paidMinor := o.paidMinor
      referralRewardMinor := o.referralRewardMinor
      hold := s.holds.rows.find? fun h => h.orderId == o.id && h.state == .consumed }

/-- `SELECT … FROM refunds WHERE order_id = ? AND status = 'succeeded'`. -/
def succeededRefunds (s : Db) (orderId : Id) : List Refund :=
  s.refunds.rows.filter fun r => r.orderId == orderId && r.status == .succeeded

def refundAmountExceeded (message : String) : DomainError := ⟨"refund_amount_exceeded", 409, message⟩

/-- The arithmetic of `promotionRefundSplit` on its two reads. -/
def computeSplit (order : SplitOrder) (refunded : List Refund) (amountMinor : Minor) :
    Except DomainError PromotionSplit :=
  let paid : Int := order.paidMinor
  let before : Int := (refunded.map fun r => (r.amountMinor : Int)).sum
  let delta : Int := amountMinor
  if paid ≤ 0 ∨ delta ≤ 0 ∨ paid < before + delta then
    .error (refundAmountExceeded "Refund amount exceeds the remaining paid amount")
  else
    let cashMinor : Int := (order.hold.map fun h => (h.cashMinor : Int)).getD 0
    let rewardMinor : Int := (order.hold.map fun h => (h.rewardMinor : Int)).getD 0
    let cashRemaining := cashMinor - (refunded.map (·.cashReturnMinor)).sum
    let rewardRemaining := rewardMinor - (refunded.map (·.rewardReturnMinor)).sum
    let remaining := paid - before
    let parts := splitParts
      [cashRemaining, rewardRemaining, remaining - cashRemaining - rewardRemaining] delta remaining
    let cash := partAmount parts 0
    let reward := partAmount parts 1
    .ok
      { order := order
        cash := cash
        reward := reward
        external := delta - cash - reward
        reversal := ((order.referralRewardMinor : Int) * (before + delta)).tdiv paid -
          (refunded.map (·.referralReversalMinor)).sum
        after := before + delta
        allocated := order.hold.isSome }

def promotionRefundSplit {ℓ : Type} (orderId : Id) (amountMinor : Minor) : Call ℓ (Option PromotionSplit) := do
  let order? ← Prog.query fun s => splitOrder s orderId
  match order? with
  | none => return none
  | some order =>
    let refunded ← Prog.query fun s => succeededRefunds s orderId
    match computeSplit order refunded amountMinor with
    | .error e => Prog.throw e
    | .ok split => return some split

theorem computeSplit_ok {order : SplitOrder} {refunded : List Refund} {amountMinor : Minor}
    {split : PromotionSplit} (h : computeSplit order refunded amountMinor = .ok split) :
    split.order = order ∧ (refunded.map fun r => (r.amountMinor : Int)).sum + amountMinor ≤ order.paidMinor ∧
      split.after = (refunded.map fun r => (r.amountMinor : Int)).sum + amountMinor := by
  unfold computeSplit at h
  dsimp only at h
  split at h
  · cases h
  · next hc =>
    simp only [Except.ok.injEq] at h
    subst h
    refine ⟨rfl, ?_, rfl⟩
    omega

/-! ## Conversion into the payment's currency -/

/-- The `RangeError` that `unitsToDecimal` and `divideByRate` throw. -/
def rangeError (message : String) : DomainError := ⟨"RangeError", 500, message⟩

/-- `convertMinorAmount`: the amount times (or over) the rate, rounded up. -/
def convertMinorAmount (amountMinor : Int) (fromDecimals rateUnits rateDecimals outputDecimals : Nat)
    (divide : Bool) : Except DomainError Nat :=
  if amountMinor < 0 then .error (rangeError "Amount cannot be negative")
  else
    let amountUnits := amountMinor.toNat
    if divide then
      if rateUnits = 0 then .error (rangeError "Rate must be positive")
      else
        let numerator := amountUnits * 10 ^ (rateDecimals + outputDecimals)
        let denominator := rateUnits * 10 ^ fromDecimals
        .ok ((numerator + denominator - 1) / denominator)
    else
      let numerator := amountUnits * rateUnits * 10 ^ outputDecimals
      let denominator := 10 ^ (fromDecimals + rateDecimals)
      .ok ((numerator + denominator - 1) / denominator)

end Gmshop
