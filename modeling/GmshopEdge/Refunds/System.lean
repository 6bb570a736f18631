import GmshopEdge.Refunds.Statements
import GmshopEdge.Orders.System

/-!
# The refund calls side by side

The batches that the refund calls commit (`RefundBatch`), each with what the call had read when it got
there. `RefundCall.bare` turns a property of these batches into one of the calls, as `ShopCall.bare`
does for the calls of the shop; `moneyCode` puts the two together.
-/

namespace Gmshop

open Sql Stmt Prog Bare

/-! ## The batches -/

section Batches

variable {τ : Type} (S : Spec Db Site τ)

inductive RefundBatch : Site → List (Stmt Db) → Db → Prop
  | request {t : Db} (input : RefundRequest) (o : RefundableOrder) (paymentAmount : Int)
      (split : Option PromotionSplit) (manual : Bool) (e : RefundEnv) :
      RefundBatch (.requestShopRefund o.order.id e.uuid)
        (requestBatch input o paymentAmount split manual e.uuid e.now) t
  | allocated {t : Db} (input : RefundRequest) (split : PromotionSplit) (e : RefundEnv)
      (revoke : List (Stmt Db)) (hrevoke : ∀ st ∈ revoke, CloseStmt st) :
      RefundBatch (.refundAllocatedBalance split.order.id split.order.status split.order.version
          { amountMinor := input.amountMinor, cashMinor := split.cash, rewardMinor := split.reward
            reversalMinor := split.reversal })
        (allocatedBatch input split e.uuid e.now revoke) t
  | wallet {t : Db} (input : RefundRequest) (order : ShopOrder) (user : User) (available reversal : Int)
      (e : RefundEnv) (revoke : List (Stmt Db)) (hrevoke : ∀ st ∈ revoke, CloseStmt st)
      (horder : S.Seen (fun s => walletOrder s input.orderId) (some (order, user)) t) :
      RefundBatch (.requestWalletShopRefund
          { orderId := order.id, orderStatus := order.status, orderVersion := order.version
            userId := user.id, balanceMinor := user.balanceMinor
            balanceVersion := user.balanceVersion, amountMinor := input.amountMinor
            fullRefund := (input.amountMinor : Int) == available, reversalMinor := reversal })
        (walletRefundBatch input order user available reversal e.uuid e.now revoke) t
  | retry {t : Db} (refundId orderId : Id) (now : Time) :
      RefundBatch (.retryShopRefund refundId) (retryBatch refundId orderId now) t
  | claim {t : Db} (refundId : Id) (attemptCount : Nat) (now : Time) :
      RefundBatch (.claimRefundAttempt refundId attemptCount now) (claimBatch refundId attemptCount now) t
  | manualClaim {t : Db} (refundId : Id) (attemptCount : Nat) :
      RefundBatch (.completeManualShopRefund refundId) (manualClaimBatch refundId attemptCount) t
  | schedule {t : Db} (refundId : Id) (paymentId : ProviderRefundId) (attempt : Nat) (now : Time) :
      RefundBatch (.scheduleRefundCheck refundId) (scheduleBatch refundId paymentId attempt now) t
  | providerFailure {t : Db} (refundId : Id) (attempt : Nat) (now : Time) :
      RefundBatch (.recordRefundProviderFailure refundId) (providerFailureBatch refundId attempt now) t
  | manualReconciliation {t : Db} (refundId : Id) (attempt : Nat) :
      RefundBatch (.requireManualRefundReconciliation refundId)
        (manualReconciliationBatch refundId attempt) t
  | finalize {t : Db} (c : RefundContext) (status : RefundStatus) (failureCode : Option RefundFailure)
      (paymentId : Option ProviderRefundId) (attempt : Nat) (orderStatus : ShopOrderStatus) (now : Time)
      (close : List (Stmt Db)) (hclose : ∀ st ∈ close, CloseStmt st) :
      RefundBatch (.finalizeRefund c.refund.id attempt status orderStatus)
        (finalizeBatch c.refund status failureCode paymentId attempt orderStatus now close) t

def AdmitsRefund : Prop :=
  ∀ x sts t ns u, RefundBatch S x sts t → S.inv t → S.cond x t → batch sts 0 t = .ok (ns, u) → S.Admits ∅ ∅ t u

end Batches

/-! ## Every call is in order -/

section Calls

variable {τ : Type} {S : Spec Db Site τ} {s : Db} {α : Type}

theorem AdmitsRefund.commit (h : AdmitsRefund S) {x : Site} {sts : List (Stmt Db)}
    (hb : ∀ t, S.rely ∅ s t → RefundBatch S x sts t) :
    Bare S (Prog.commit x sts : Call Site (List Nat)) s :=
  Bare.commit fun t hr hi hc ns u hbatch => h x sts t ns u (hb t hr) hi hc hbatch

theorem require_bare {p : Bool} {e : DomainError} {k : Unit → Call Site α} (h : Bare S (k ()) s) :
    Bare S (require p e >>= k) s := by
  unfold require
  split
  · exact h
  · exact .throw _

theorem require_done {p : Bool} {e : DomainError} {a : α} :
    Bare S (require p e >>= fun _ => (pure a : Call Site α)) s :=
  require_bare (.done a)

section

variable (h : AdmitsRefund S) (input : RefundRequest)
include h input

theorem refundAllocatedBalance_bare (split : PromotionSplit) (e : RefundEnv) :
    Bare S (refundAllocatedBalance input split e) s := by
  refine require_bare (reads (revokeWhen_reads _ _ _ _) fun revoke t hrevoke _ =>
    (h.commit fun _ _ => ?_).bind fun _ _ _ => require_done)
  exact .allocated input split e revoke hrevoke

theorem requestWalletShopRefund_bare (e : RefundEnv) : Bare S (requestWalletShopRefund input e) s := by
  refine query_bare fun t row? hrow => ?_
  cases row? with
  | none => exact .throw _
  | some row =>
    refine require_bare (query fun u hu _ => require_bare
      (reads (promotionRefundSplit_reads _ _) fun split v _ hv => require_bare
        (reads (revokeWhen_reads _ _ _ _) fun revoke w hrevoke hw =>
          (h.commit fun x hx => ?_).bind fun _ _ _ => require_done)))
    refine .wallet input row.1 row.2 _ _ e revoke hrevoke (hrow.later S ?_)
    exact S.rely_trans _ _ _ _ hu (S.rely_trans _ _ _ _ hv (S.rely_trans _ _ _ _ hw hx))

theorem requestPaymentRefund_bare (split : Option PromotionSplit) (o : RefundableOrder) (e : RefundEnv) :
    Bare S (requestPaymentRefund input split o e) s := by
  refine require_bare (query fun t _ _ => require_bare ?_)
  dsimp only
  split
  · exact .throw _
  · exact require_bare ((h.commit fun _ _ => .request _ _ _ _ _ _).bind fun _ _ _ => require_done)

theorem requestShopRefund_bare (e : RefundEnv) : Bare S (requestShopRefund input e) s := by
  refine reads (assertAgentRefundAmount_reads _ _) fun _ t _ _ => require_bare (query fun u _ _ => ?_)
  split
  · exact require_done
  · refine reads (promotionRefundSplit_reads _ _) fun split v _ _ => ?_
    split
    · exact refundAllocatedBalance_bare h _ _ _
    · refine query fun w _ _ => ?_
      split
      · exact requestWalletShopRefund_bare h _ _
      · exact requestPaymentRefund_bare h _ _ _ _

end

theorem retryShopRefund_bare (h : AdmitsRefund S) (refundId : Id) (now : Time) :
    Bare S (retryShopRefund refundId now) s := by
  refine query_bare fun t refund? _ => ?_
  cases refund? with
  | none => exact .throw _
  | some refund =>
    exact require_bare ((h.commit fun _ _ => .retry _ _ _).bind fun _ _ _ => .done _)

theorem finalizeRefund_bare (h : AdmitsRefund S) (c : RefundContext) (status : RefundStatus)
    (failureCode : Option RefundFailure) (paymentId : Option ProviderRefundId) (attempt : Nat)
    (now : Time) : Bare S (finalizeRefund c status failureCode paymentId attempt now) s := by
  refine query fun t _ _ => reads (fullRefundStatements_reads _ _ _ _)
    fun close u hclose _ => (h.commit fun _ _ => ?_).bind fun _ _ _ => .done _
  exact .finalize c status failureCode paymentId attempt _ now close hclose

theorem settleProviderAnswer_bare (h : AdmitsRefund S) (c : RefundContext) (attempt : Nat)
    (answer : ProviderAnswer) (now : Time) : Bare S (settleProviderAnswer c attempt answer now) s := by
  cases answer with
  | pending paymentId => exact (h.commit fun _ _ => .schedule _ _ _ _).bind fun _ _ _ => .done _
  | succeeded paymentId code => exact finalizeRefund_bare h _ _ _ _ _ _
  | failed paymentId code => exact finalizeRefund_bare h _ _ _ _ _ _
  | cancelled paymentId code => exact finalizeRefund_bare h _ _ _ _ _ _
  | reconciliationRequired =>
    exact (h.commit fun _ _ => .manualReconciliation _ _).bind fun _ _ _ => .done _
  | error =>
    show Bare S (recordRefundProviderFailure c attempt now) s
    unfold recordRefundProviderFailure
    split
    · refine (h.commit fun _ _ => .providerFailure _ _ _).bind fun ns _ _ => ?_
      split
      · exact .done _
      · exact .done _
    · exact finalizeRefund_bare h _ _ _ _ _ _

theorem refundDuplicate_bare (c : RefundContext) : Bare S (refundDuplicate c) s :=
  (refundDuplicate_reads c).bare s

theorem processShopRefund_bare (h : AdmitsRefund S) (refundId : Id) (e : ProcessRefundEnv) :
    Bare S (processShopRefund refundId e) s := by
  refine query_bare fun t refund? _ => ?_
  cases refund? with
  | none => exact .throw _
  | some c =>
    dsimp only
    split
    · exact .done _
    · refine require_bare (bind ((h.commit fun _ _ => .claim _ _ _).bind fun _ _ _ => .done _)
        fun attempt? u _ => ?_)
      cases attempt? with
      | none => exact refundDuplicate_bare c
      | some attempt => exact settleProviderAnswer_bare h _ _ _ _

theorem completeManualShopRefund_bare (h : AdmitsRefund S) (refundId : Id) (reference : Option Nat)
    (returned : Bool) (now : Time) :
    Bare S (completeManualShopRefund refundId reference returned now) s := by
  refine require_bare (query_bare fun t refund? _ => ?_)
  cases refund? with
  | none => exact .throw _
  | some c =>
    dsimp only
    split
    · exact .done _
    · refine require_bare ?_
      cases reference with
      | none => exact .throw _
      | some ref =>
        refine (h.commit fun _ _ => .manualClaim _ _).bind fun results u _ => ?_
        split
        · exact finalizeRefund_bare h _ _ _ _ _ _
        · exact refundDuplicate_bare c

theorem RefundCall.bare (h : AdmitsRefund S) (c : RefundCall) (s : Db) : Bare S c.code s := by
  cases c with
  | request input e => exact requestShopRefund_bare h input e
  | process refundId e => exact processShopRefund_bare h refundId e
  | retry refundId now => exact retryShopRefund_bare h refundId now
  | complete refundId reference returned now => exact completeManualShopRefund_bare h _ _ _ _

end Calls

/-! ## Payments and refunds -/

def moneyCode : ShopCall ⊕ RefundCall → Call Site Unit
  | .inl c => c.code
  | .inr c => c.code.void

theorem moneyCode_bare {τ : Type} {S : Spec Db Site τ} {A : ShopOrderStatus → Prop}
    (hshop : AdmitsShop S A) (hrefund : AdmitsRefund S) (c : ShopCall ⊕ RefundCall)
    (hc : ∀ x, c = .inl x → x.within A) (s : Db) : Bare S (moneyCode c) s := by
  cases c with
  | inl c => exact ShopCall.bare hshop c (hc c rfl) s
  | inr c => exact (RefundCall.bare hrefund c s).void

end Gmshop
