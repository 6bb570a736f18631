import GmshopEdge.Entitlements.Ledger

/-!
# Referral rewards are settled

`settlePromotionRewards` (`promotions/server/balance.ts`): a reward whose order has stayed completed
long enough becomes available, and the trigger of its row credits the referrer.
-/

namespace Gmshop

open Sql Stmt

/-- `promotion_reward_credit`: what is left of a reward goes to the referrer's reward balance. -/
def promotionRewardCredit (old new : PromotionReward) : List (Stmt Db) :=
  if old.state = .pending ∧ new.state = .available then [update Db.usersT (fun _ u => some u.id == new.userId)
        (fun _ u => { u with rewardBalanceMinor := u.rewardBalanceMinor + new.remainingMinor }),
      insert Db.rewardEntriesT .abort fun s =>
        (s.users.rows.filter fun u => some u.id == new.userId).map fun u =>
          { userId := u.id, deltaMinor := new.remainingMinor
            balanceAfterMinor := u.rewardBalanceMinor, idempotencyKey := .earned new.orderId }]
  else []

/-- `UPDATE promotion_rewards SET state = …`. -/
def updateRewards (p : Db → PromotionReward → Bool) (f : Db → PromotionReward → PromotionReward) : Stmt Db :=
  updateEach Db.rewardsT (fun _ _ => []) promotionRewardCredit p f

theorem updateRewards_keeps {γ : Type} {g : Db → γ} {p : Db → PromotionReward → Bool}
    {f : Db → PromotionReward → PromotionReward}
    (hu : ∀ s t, g (Db.usersT.set s t) = g s)
    (hr : ∀ s t, g (Db.rewardsT.set s t) = g s)
    (he : ∀ s t, g (Db.rewardEntriesT.set s t) = g s) : Keeps g (updateRewards p f) :=
  updateEach_keeps hr (fun _ _ => List.forall_mem_nil _) fun _ _ =>
    each_if fun _ => each_two (update_keeps hu) (insert_keeps he)

/-- The rewards that can be settled at `now`. -/
def settleable (s : Db) (now : Time) (r : PromotionReward) : Bool :=
  r.state == .pending && r.availableAt.any (fun t => decide (t ≤ now)) &&
    s.orderIs r.orderId (·.status == .completed) &&
    s.users.exist fun u => some u.id == r.userId && u.enabled

/-- `ORDER BY available_at, order_id LIMIT 100`. -/
def settleableOrders (s : Db) (now : Time) : List Id :=
  ((List.insertionSort (fun a b : PromotionReward => a.availableAt.getD 0 < b.availableAt.getD 0 ∨
      (a.availableAt.getD 0 = b.availableAt.getD 0 ∧ a.orderId ≤ b.orderId))
    (s.rewards.rows.filter (settleable s now))).take 100).map (·.orderId)

def settleStatement (orderId : Id) (now : Time) : Stmt Db :=
  updateRewards (fun s r => r.orderId == orderId && settleable s now r) (fun _ r => { r with state := .available })

def settleOrders (now : Time) : List Id → Call Site Nat
  | [] => pure 0
  | orderId :: rest => do
    let results ← Prog.commit (.settlePromotionReward orderId) [settleStatement orderId now]
    let settled ← settleOrders now rest
    return settled + if 0 < results.headD 0 then 1 else 0

def settlePromotionRewards (now : Time) : Call Site Nat := do
  let rows ← Prog.query fun s => settleableOrders s now
  settleOrders now rows

end Gmshop
