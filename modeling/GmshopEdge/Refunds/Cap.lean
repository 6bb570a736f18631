import GmshopEdge.Refunds.Calls
import GmshopEdge.Fulfillment.System

/-!
# The refund cap

The refund calls as a system: any number of `requestShopRefund`, `processShopRefund`,
`retryShopRefund` and `completeManualShopRefund` calls, duplicates included, interleaved action by
action. A failed refund gives its amount back to the order, and both `retryShopRefund` and a late
`claimRefundAttempt` make it count again without asking what is left. Where that never happens
(`budgetChecked`) no order's refunds exceed what was paid.
-/

namespace Gmshop

open Sql

theorem RefundCall.ok {strict : Prop} (c : RefundCall) (s : Db) (h : BudgetInv strict s) :
    Prog.Ok (refundSpec strict) Prog.anyEnd c.code ∅ s := by
  cases c with
  | request input e => exact requestShopRefund_ok h
  | process refundId e => exact processShopRefund_ok
  | retry refundId now => exact retryShopRefund_ok
  | complete refundId reference fundsReturned now => exact completeManualShopRefund_ok

theorem BudgetInv.init {strict : Prop} {s : Db} (h : s.refunds.rows = []) : BudgetInv strict s where
  cap i o _ _ := by
    simp [liveMinor, Table.sum, h]
  provider r hr := by
    rw [h] at hr
    cases hr

/-- In every run whose batches are `budgetChecked`, an order's live refunds stay within its paid
amount. -/
theorem live_refunds_le_paid {s : Db} (h0 : s.refunds.rows = []) {w : World Db Site DomainError RefundReply}
    (hrun : Runs RefundCall.code budgetChecked ⟨s, []⟩ w) {i : Id} {o : ShopOrder}
    (ho : w.db.orders.get? i = some o) : liveMinor w.db i ≤ o.paidMinor :=
  have hgood := (Runs.sound (refundSpec True) RefundCall.ok hrun (good_idle _ (BudgetInv.init h0))).1
  hgood.1.cap i o ho (Or.inl trivial)

/-! ## Two runs -/

def refundRun : World Db Site DomainError RefundReply :=
  World.exec RefundCall.code budgetChecked ⟨paidOrderDb, []⟩
    (oneByOne [fullRefund 10 1 5, answered 10 (.succeeded (.provider 1) none) 6] 10)

/-- A full refund fails for good, a second one is requested, then the first is retried. -/
def revivedRun : World Db Site DomainError RefundReply :=
  World.exec RefundCall.code anySite ⟨paidOrderDb, []⟩
    (oneByOne [fullRefund 10 1 5, answered 10 (.failed (.provider 1) none) 6, fullRefund 11 2 8, .retry 10 9] 10)

theorem live_refunds_le_paid_refundRun : ∃ o, refundRun.db.orders.get? 1 = some o ∧ o.status = .refunded ∧
      liveMinor refundRun.db 1 = 100 ∧ liveMinor refundRun.db 1 ≤ o.paidMinor :=
  have ho : refundRun.db.orders.get? 1 = some { id := 1, status := .refunded, version := 3, totalMinor := 100, paidMinor := 100, updatedAt := 7 } := by decide
  ⟨_, ho, rfl, by decide, live_refunds_le_paid rfl (World.exec_runs RefundCall.code budgetChecked _ _) ho⟩

/-- A revived refund counts twice what was paid. -/
theorem not_live_refunds_le_paid : ¬∀ (s : Db), s.refunds.rows = [] → ∀ w : World Db Site DomainError RefundReply,
      Runs RefundCall.code anySite ⟨s, []⟩ w → ∀ i o, w.db.orders.get? i = some o →
        liveMinor w.db i ≤ o.paidMinor := by
  intro h
  have hcap := h paidOrderDb rfl revivedRun (World.exec_runs _ _ _ _) 1
    { id := 1, status := .refunding, version := 4, totalMinor := 100, paidMinor := 100
      updatedAt := 8 } (by decide)
  have hlive : liveMinor revivedRun.db 1 = 200 := by decide
  exact absurd hcap (by decide)

end Gmshop
