import GmshopEdge.Refunds.Service

/-!
# The statements of the refund calls

`RefundStmt` lists the kinds of statements that the refund calls commit; `requestShopRefund_only` and
its siblings say that they commit no others. A property of every such statement is then a property
of every step of a refund call, whatever it read before.
-/

namespace Gmshop

open List Sql Stmt Prog

inductive CloseStmt : Stmt Db → Prop
  | entitlements (p : Db → CustomerEntitlement → Bool)
      (f : Db → CustomerEntitlement → CustomerEntitlement) :
      CloseStmt (update Db.entitlementsT p f)
  | grants (p : Db → EntitlementGrant → Bool) :
      CloseStmt (update Db.grantsT p fun _ g => { g with status := .refunded })
  | afterSales (p : Db → AfterSaleCase → Bool) (f : Db → AfterSaleCase → AfterSaleCase) :
      CloseStmt (update Db.afterSalesT p f)
  | events (g : Db → List ShopOrderEvent) : CloseStmt (insert Db.eventsT .abort g)
  | outbox (g : Db → List OutboxEvent) : CloseStmt (insert Db.outboxT .doNothing g)
  | cancel (orderId : Id) (st : Stmt Db) (h : st ∈ cancelOpenFulfillmentStatements orderId) :
      CloseStmt st

inductive RefundStmt : Stmt Db → Prop
  | orders (p : Db → ShopOrder → Bool) (f : Db → ShopOrder → ShopOrder)
      (hf : ∀ s o, (f s o).id = o.id) : RefundStmt (updateOrders p f)
  | refunds (p : Db → Refund → Bool) (f : Db → Refund → Refund) : RefundStmt (updateRefunds p f)
  | refundRow (p : Db → Refund → Bool) (f : Db → Refund → Refund) :
      RefundStmt (update Db.refundsT p f)
  | newRefund (g : Db → List Refund) : RefundStmt (insertRefund g)
  | newRefundOn (g : Nat → Db → List Refund) :
      RefundStmt (onChanges fun changes => insertRefund (g changes))
  | users (p : Db → User → Bool) (f : Db → User → User) : RefundStmt (update Db.usersT p f)
  | wallet (g : Db → List WalletEntry) : RefundStmt (insert Db.walletEntriesT .abort g)
  | outbox (c : OnConflict) (g : Db → List OutboxEvent) : RefundStmt (insert Db.outboxT c g)
  | close (st : Stmt Db) (h : CloseStmt st) : RefundStmt st

/-- A part of the state that closing an order leaves alone. -/
structure OffClose {γ : Type} (g : Db → γ) : Prop where
  entitlements : ∀ s t, g (Db.entitlementsT.set s t) = g s
  grants : ∀ s t, g (Db.grantsT.set s t) = g s
  afterSales : ∀ s t, g (Db.afterSalesT.set s t) = g s
  events : ∀ s t, g (Db.eventsT.set s t) = g s
  outbox : ∀ s t, g (Db.outboxT.set s t) = g s
  supplierOrders : ∀ s t, g (Db.supplierOrdersT.set s t) = g s
  deliveries : ∀ s t, g (Db.deliveriesT.set s t) = g s

section Keeps

variable {γ : Type} {g : Db → γ} {st : Stmt Db}

theorem CloseStmt.keeps (h : CloseStmt st) (hg : OffClose g) : Stmt.Keeps g st := by
  cases h with
  | entitlements p f => exact update_keeps hg.entitlements
  | grants p => exact update_keeps hg.grants
  | afterSales p f => exact update_keeps hg.afterSales
  | events g => exact insert_keeps hg.events
  | outbox g => exact insert_keeps hg.outbox
  | cancel orderId st h =>
    exact cancelOpenFulfillmentStatements_keep orderId hg.supplierOrders hg.outbox hg.deliveries st h

theorem RefundStmt.keeps (h : RefundStmt st) (hclose : ∀ st, CloseStmt st → Stmt.Keeps g st)
    (hg : OffPromotion g)
    (horders : ∀ s t, g (Db.ordersT.set s t) = g s)
    (hrefunds : ∀ s t, g (Db.refundsT.set s t) = g s)
    (houtbox : ∀ s t, g (Db.outboxT.set s t) = g s) : Stmt.Keeps g st := by
  cases h with
  | orders p f _ => exact updateOrders_keeps hg horders
  | refunds p f => exact updateRefunds_keeps hg hrefunds
  | refundRow p f => exact update_keeps hrefunds
  | newRefund g => exact insertRefund_keeps hg hrefunds
  | newRefundOn g => exact onChanges_within fun _ => insertRefund_keeps hg hrefunds
  | users p f => exact update_keeps hg.users
  | wallet g => exact insert_keeps hg.walletEntries
  | outbox c g => exact insert_keeps houtbox
  | close st h => exact hclose st h

end Keeps

/-! ## The statements of a full refund -/

theorem revokeWhen_reads (full : Prop) [Decidable full] (orderId : Id) (now : Time) (guard : Option RefundGuard) :
    Reads (fun sts => ∀ st ∈ sts, CloseStmt st) (revokeWhen full orderId now guard) := by
  unfold revokeWhen
  by_cases hf : full
  · rw [if_pos hf]
    exact refundEntitlementGrantStatements_reads CloseStmt.entitlements CloseStmt.grants orderId now guard
  · rw [if_neg hf]
    intro st hst
    cases hst

theorem closeRefundAfterSale_reads (orderId refundId : Id) (attempt : Nat) (now : Time) :
    Reads (fun sts => ∀ st ∈ sts, CloseStmt st) (closeRefundAfterSaleStatements orderId refundId attempt now) := by
  refine (reads_query _).bind fun cases _ => ?_
  intro st hst
  obtain ⟨c, -, hst⟩ := mem_flatMap.mp hst
  exact each_three (.afterSales _ _) (.events _) (.outbox _) _ hst

theorem fullRefundStatements_reads (full : Prop) [Decidable full] (refund : Refund) (attempt : Nat) (now : Time) :
    Reads (fun sts => ∀ st ∈ sts, CloseStmt st) (fullRefundStatements full refund attempt now) := by
  unfold fullRefundStatements
  by_cases hf : full
  · rw [if_pos hf]
    refine (refundEntitlementGrantStatements_reads CloseStmt.entitlements CloseStmt.grants _ _ _).bind
      fun revoke hrevoke => (closeRefundAfterSale_reads _ _ _ _).bind fun close hclose => ?_
    intro st hst
    rcases mem_append.mp hst with hst | hst
    · rcases mem_append.mp hst with hst | hst
      · exact hrevoke st hst
      · exact hclose st hst
    · exact .cancel _ st hst
  · rw [if_neg hf]
    intro st hst
    cases hst

theorem promotionRefundSplit_reads (orderId : Id) (amountMinor : Minor) :
    Reads (fun _ => True) (promotionRefundSplit orderId amountMinor : Call Site _) := by
  refine (reads_query _).bind fun order? _ => ?_
  cases order? with
  | none => trivial
  | some order =>
    refine (reads_query _).bind fun refunded _ => ?_
    cases computeSplit order refunded amountMinor <;> trivial

theorem require_reads {p : Bool} {e : DomainError} : Reads (fun _ => True) (require p e : Call Site Unit) := by
  unfold require
  split <;> trivial

theorem assertAgentRefundAmount_reads (orderId : Id) (amountMinor : Minor) :
    Reads (fun _ => True) (assertAgentRefundAmount orderId amountMinor : Call Site Unit) :=
  (reads_query _).bind fun _ _ => require_reads

theorem refundDuplicate_reads (c : RefundContext) : Reads (fun _ => True) (refundDuplicate c) :=
  (reads_query _).bind fun _ _ => trivial

/-! ## Requests -/

theorem only_require {α : Type} {p : Bool} {e : DomainError} {k : Unit → Call Site α}
    (h : Only RefundStmt (k ())) : Only RefundStmt (require p e >>= k) :=
  Only.reads require_reads fun _ _ => h

theorem refundTail {orderId : Id} {revoke : List (Stmt Db)} (hrevoke : ∀ st ∈ revoke, CloseStmt st)
    (full : Prop) [Decidable full] :
    ∀ st ∈ (if full then revoke ++ cancelOpenFulfillmentStatements orderId else []), RefundStmt st := by
  intro st hst
  by_cases hf : full
  · rw [if_pos hf] at hst
    rcases mem_append.mp hst with hst | hst
    · exact .close st (hrevoke st hst)
    · exact .close st (.cancel orderId st hst)
  · rw [if_neg hf] at hst
    cases hst

section

variable (input : RefundRequest)
include input

theorem refundAllocatedBalance_only (split : PromotionSplit) (e : RefundEnv) :
    Only RefundStmt (refundAllocatedBalance input split e) := by
  refine only_require (Only.reads (revokeWhen_reads _ _ _ _) fun revoke hrevoke =>
    Only.bind (Only.commit fun st hst => ?_) fun _ => only_require trivial)
  rcases mem_append.mp hst with hst | hst
  · exact each_three (.orders _ _ fun _ _ => rfl) (.newRefundOn _) (.close _ (.events _)) _ hst
  · exact refundTail hrevoke _ st hst

theorem requestWalletShopRefund_only (e : RefundEnv) : Only RefundStmt (requestWalletShopRefund input e) := by
  refine Only.query fun row? => ?_
  cases row? with
  | none => trivial
  | some row =>
    refine only_require (Only.query fun reserved => only_require
      (Only.reads (promotionRefundSplit_reads _ _) fun split _ => only_require
        (Only.reads (revokeWhen_reads _ _ _ _) fun revoke hrevoke =>
          Only.bind (Only.commit fun st hst => ?_) fun _ => only_require trivial)))
    rcases mem_append.mp hst with hst | hst
    · exact each_five (.users _ _) (.wallet _) (.orders _ _ fun _ _ => rfl) (.newRefund _) (.close _ (.events _)) _
        hst
    · exact refundTail hrevoke _ st hst

theorem requestPaymentRefund_only (split : Option PromotionSplit) (o : RefundableOrder) (e : RefundEnv) :
    Only RefundStmt (requestPaymentRefund input split o e) := by
  refine only_require (Only.query fun reserved => only_require ?_)
  dsimp only
  split
  · trivial
  refine only_require (Only.bind (Only.commit fun st hst => ?_) fun _ => only_require trivial)
  rcases mem_append.mp hst with hst | hst
  · rcases mem_append.mp hst with hst | hst
    · exact each_three (.orders _ _ fun _ _ => rfl) (.newRefundOn _) (.close _ (.events _)) _ hst
    · split at hst
      · cases hst
      · rw [mem_singleton.mp hst]
        exact .outbox _ _
  · split at hst
    · cases hst
    · rw [mem_singleton.mp hst]
      exact .refundRow _ _

theorem requestShopRefund_only (e : RefundEnv) : Only RefundStmt (requestShopRefund input e) := by
  refine Only.reads (assertAgentRefundAmount_reads _ _) fun _ _ => only_require (Only.query fun existing => ?_)
  cases existing with
  | some r => exact only_require trivial
  | none =>
    refine Only.reads (promotionRefundSplit_reads _ _) fun split _ => ?_
    split
    · exact refundAllocatedBalance_only _ _ _
    · refine Only.query fun order? => ?_
      cases order? with
      | none => exact requestWalletShopRefund_only _ _
      | some o => exact requestPaymentRefund_only _ _ _ _

end

/-! ## Retry, processing and manual completion -/

theorem retryShopRefund_only (refundId : Id) (now : Time) : Only RefundStmt (retryShopRefund refundId now) := by
  unfold retryShopRefund
  refine Only.query fun refund? => ?_
  cases refund? with
  | none => trivial
  | some refund =>
    refine only_require (Only.bind (Only.commit fun st hst => ?_) fun _ => trivial)
    exact each_three (.orders _ _ fun _ _ => rfl) (.refunds _ _) (.outbox _ _) _ hst

theorem finalizeRefund_only (c : RefundContext) (status : RefundStatus) (fc : Option RefundFailure)
    (pid : Option ProviderRefundId) (n : Nat) (now : Time) :
    Only RefundStmt (finalizeRefund c status fc pid n now) := by
  unfold finalizeRefund
  refine Only.query fun succeeded => Only.reads (fullRefundStatements_reads _ _ _ _)
    fun close hclose => Only.bind (Only.commit fun st hst => ?_) fun _ => trivial
  rcases mem_append.mp hst with hst | hst
  · exact each_four (.refunds _ _) (.orders _ _ fun _ _ => rfl) (.close _ (.events _)) (.outbox _ _) _ hst
  · exact .close _ (hclose st hst)

theorem settleProviderAnswer_only (c : RefundContext) (n : Nat) (answer : ProviderAnswer)
    (now : Time) : Only RefundStmt (settleProviderAnswer c n answer now) := by
  cases answer with
  | pending pid =>
    refine Only.bind (Only.commit fun st hst => ?_) fun _ => trivial
    exact each_two (.refunds _ _) (.outbox _ _) _ hst
  | succeeded pid fc => exact finalizeRefund_only _ _ _ _ _ _
  | failed pid fc => exact finalizeRefund_only _ _ _ _ _ _
  | cancelled pid fc => exact finalizeRefund_only _ _ _ _ _ _
  | reconciliationRequired =>
    refine Only.bind (Only.commit fun st hst => ?_) fun _ => trivial
    rw [mem_singleton.mp hst]
    exact .refunds _ _
  | error =>
    show Only RefundStmt (recordRefundProviderFailure c n now)
    unfold recordRefundProviderFailure
    split
    · refine Only.bind (Only.commit fun st hst => ?_) fun ns => by split <;> trivial
      exact each_two (.refunds _ _) (.outbox _ _) _ hst
    · exact finalizeRefund_only _ _ _ _ _ _

theorem processShopRefund_only (refundId : Id) (e : ProcessRefundEnv) :
    Only RefundStmt (processShopRefund refundId e) := by
  unfold processShopRefund
  refine Only.query fun refund? => ?_
  cases refund? with
  | none => trivial
  | some c =>
    dsimp only
    split
    · trivial
    refine only_require (Only.bind (Only.bind (Only.commit fun st hst => ?_) fun _ => trivial) fun attempt? => ?_)
    · rw [mem_singleton.mp hst]
      exact .refunds _ _
    · cases attempt? with
      | none => exact Only.query fun _ => trivial
      | some n => exact settleProviderAnswer_only _ _ _ _

theorem completeManualShopRefund_only (refundId : Id) (reference : Option Nat) (returned : Bool)
    (now : Time) : Only RefundStmt (completeManualShopRefund refundId reference returned now) := by
  unfold completeManualShopRefund
  refine only_require (Only.query fun refund? => ?_)
  cases refund? with
  | none => trivial
  | some c =>
    dsimp only
    split
    · trivial
    refine only_require ?_
    cases reference with
    | none => trivial
    | some ref =>
      refine Only.bind (Only.commit fun st hst => ?_) fun results => ?_
      · rw [mem_singleton.mp hst]
        exact .refundRow _ _
      · split
        · exact finalizeRefund_only _ _ _ _ _ _
        · exact Only.query fun _ => trivial

/-! ## The refund service -/

inductive RefundCall where
  | request (input : RefundRequest) (e : RefundEnv)
  | process (refundId : Id) (e : ProcessRefundEnv)
  | retry (refundId : Id) (now : Time)
  | complete (refundId : Id) (reference : Option Nat) (fundsReturned : Bool) (now : Time)

def RefundCall.code : RefundCall → Call Site RefundReply
  | .request input e => requestShopRefund input e
  | .process refundId e => processShopRefund refundId e
  | .retry refundId now => retryShopRefund refundId now
  | .complete refundId reference fundsReturned now =>
    completeManualShopRefund refundId reference fundsReturned now

theorem RefundCall.only (c : RefundCall) : Only RefundStmt c.code := by
  cases c with
  | request input e => exact requestShopRefund_only input e
  | process refundId e => exact processShopRefund_only refundId e
  | retry refundId now => exact retryShopRefund_only refundId now
  | complete refundId reference returned now => exact completeManualShopRefund_only _ _ _ _

end Gmshop
