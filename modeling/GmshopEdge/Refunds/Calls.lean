import GmshopEdge.Refunds.Statements
import GmshopEdge.Refunds.Requests

/-!
# The refund calls keep the budget

Every call of the refund service, started in any state that meets `BudgetInv`, takes only steps
that `refundSpec` admits. A call carries from its reads to its batch what `Rely` lets it carry: the
order it read is unchanged where the version still is, and so is what is left of it; the refund it
read belongs to the same order; the attempt it claimed is still its own.
-/

namespace Gmshop

open List Sql Stmt Prog

variable {o x : ShopOrder} {p : Bool} {α : Type} {e : RefundEnv} {input : RefundRequest} {refundId : Id}
  {now : Time} {n : Nat} {refund : Refund} {c : RefundContext}

section Calls

variable {strict : Prop} {own : Set (Id × Nat)} {s s' t : Db}

/-! ## From the reads to the batch -/

theorem Rely.same_order (h : Rely strict own s t) (ho : s.orders.get? o.id = some o)
    (hx : t.orders.get? o.id = some x) (hv : x.version = o.version) :
    x.status = o.status ∧ x.paidMinor = o.paidMinor := by
  obtain ⟨x', hx', hs⟩ := h.orders _ o ho
  rw [hx, Option.some.injEq] at hx'
  subst hx'
  exact ⟨hs.status hv, hs.paid⟩

theorem Rely.same_budget (h : Rely strict own s s') (h' : Rely strict own s' t)
    (ho : s.orders.get? o.id = some o) (hx : t.orders.get? o.id = some x) (hv : x.version = o.version)
    (hst : refundableStatus o.status = true) (hp : strict ∨ PaidByProvider t o.id) :
    liveMinor t o.id ≤ liveMinor s' o.id ∧ succeededMinor t o.id ≤ succeededMinor s' o.id := by
  obtain ⟨y, hy, hs⟩ := h.orders _ o ho
  obtain ⟨x', hx', hs'⟩ := h'.orders _ y hy
  rw [hx, Option.some.injEq] at hx'
  subst hx'
  have h1 := hs.version
  have h2 := hs'.version
  have hyv : y.version = o.version := by omega
  refine h'.budget _ y x hy hx (by omega) (hs.status hyv ▸ hst) ?_
  exact hp.imp_right (PaidByProvider.congr h'.attempts h'.channels).mp

theorem Rely.same_refund {r : Refund} (h : Rely strict own s t) (hr : s.refunds.get? r.id = some r) :
    ∃ x, t.refunds.get? r.id = some x ∧ x.orderId = r.orderId := by
  obtain ⟨x, hx, hs⟩ := h.refunds _ r hr
  exact ⟨x, hx, hs.orderId⟩

/-! ## Shared pieces -/

theorem ok_require {e : DomainError} {k : Unit → Call Site α}
    (h : p = true → Ok (refundSpec strict) anyEnd (k ()) own s) :
    Ok (refundSpec strict) anyEnd (require p e >>= k) own s := by
  unfold require
  by_cases hp : p = true
  · rw [if_pos hp]
    exact h hp
  · rw [if_neg hp]
    trivial

theorem ok_require_done {e : DomainError} {a : α} :
    Ok (refundSpec strict) anyEnd (require p e >>= fun _ => (pure a : Call Site α)) own s :=
  ok_require fun _ => trivial

theorem offEntitlements_core : OffEntitlements refundCore := ⟨fun _ _ => rfl, fun _ _ => rfl⟩

theorem CloseStmt.quiet {st : Stmt Db} (h : CloseStmt st) : Within RefundQuiet st := by
  cases h with
  | entitlements p f => exact keeps_quiet (update_off rfl)
  | grants p => exact keeps_quiet (update_off rfl)
  | afterSales p f => exact keeps_quiet (update_off rfl)
  | events g => exact insertEvents_quiet _ _
  | outbox g => exact keeps_quiet (insert_off rfl)
  | cancel orderId st h =>
    exact keeps_quiet (cancelOpenFulfillmentStatements_keep orderId (fun _ _ => rfl) (fun _ _ => rfl)
      (fun _ _ => rfl) st h)

/-! ## Requests -/

theorem requestPaymentRefund_ok {split : Option PromotionSplit} {o : RefundableOrder}
    (ho : s.orders.get? o.order.id = some o.order) (hp : PaidByProvider s o.order.id) :
    Ok (refundSpec strict) anyEnd (requestPaymentRefund input split o e) ∅ s := by
  refine ok_require fun hst => Ok.query fun s1 h1 _ => ok_require fun hamount => ?_
  rw [decide_eq_true_eq, reserved_sum] at hamount
  dsimp only
  split
  · trivial
  · refine ok_require fun _ => Ok.commit fun t ht hinv _ _ => ⟨fun _ => trivial, ?_⟩
    intro ns u hb
    have hpt : PaidByProvider t o.order.id :=
      (PaidByProvider.congr ht.attempts ht.channels).mpr ((PaidByProvider.congr h1.attempts h1.channels).mpr hp)
    refine ⟨∅, request_admits hinv hpt hst (fun x hx _ hv => ?_) hb, ok_require_done⟩
    have hb1 := (h1.same_budget ht ho hx hv hst (Or.inr hpt)).1
    have hpaid := ((h1.trans ht).same_order ho hx hv).2
    rw [hpaid]
    omega

def SplitRead (strict : Prop) (split : PromotionSplit) (amountMinor : Minor) (s' : Db) : Prop :=
  ∃ s o, Rely strict ∅ s s' ∧ s.orders.get? o.id = some o ∧ split.order.id = o.id ∧
    split.order.status = o.status ∧ split.order.version = o.version ∧
    succeededMinor s' o.id + amountMinor ≤ o.paidMinor

theorem promotionRefundSplit_ok {orderId : Id} {amountMinor : Minor} :
    Ok (refundSpec strict) (fun r o t => o = ∅ ∧ BudgetInv strict t ∧
        ∀ split, r = .ok (some split) → SplitRead strict split amountMinor t)
      (promotionRefundSplit orderId amountMinor) ∅ s := by
  refine Ok.query fun s1 _ hinv1 => ?_
  cases hso : splitOrder s1 orderId with
  | none => exact ⟨rfl, hinv1, fun _ h => by cases h⟩
  | some so =>
    refine Ok.query fun s2 h2 hinv2 => ?_
    split
    · exact ⟨rfl, hinv2, fun _ h => by cases h⟩
    · next split hcs =>
      refine ⟨rfl, hinv2, fun sp hsp => ?_⟩
      cases hsp
      obtain ⟨rfl, hroom, -⟩ := computeSplit_ok hcs
      obtain ⟨o, ho, hrow⟩ := Option.map_eq_some_iff.mp hso
      have hid : o.id = orderId := Table.get?_key ho
      subst hid
      rw [succeeded_sum, ← hrow] at hroom
      refine ⟨s1, o, h2, ho, by rw [← hrow], by rw [← hrow], by rw [← hrow], ?_⟩
      exact_mod_cast hroom

theorem refundAllocatedBalance_ok {split : PromotionSplit}
    (hread : SplitRead strict split input.amountMinor s') (hinv : BudgetInv strict s') :
    Ok (refundSpec strict) anyEnd (refundAllocatedBalance input split e) ∅ s' := by
  obtain ⟨s, o, h', ho, hid, hstatus, hversion, hroom⟩ := hread
  unfold refundAllocatedBalance
  refine ok_require fun hst => ?_
  rw [Bool.and_eq_true] at hst
  refine Ok.reads (S := refundSpec strict) (Q := anyEnd) (revokeWhen_reads _ _ _ _) hinv
    (fun _ _ _ => trivial) fun revoke s2 hrevoke h2 _ => ?_
  refine Ok.commit fun t ht hinv' _ hcond => ⟨fun _ => trivial, fun ns u hb => ?_⟩
  refine ⟨∅, allocated_admits hinv' hst.1
    (fun st h => (hrevoke st h).quiet) (fun x hx hxs hxv hp => ?_) hb, ok_require_done⟩
  rw [hid] at hx hp ⊢
  rw [hversion] at hxv
  rw [hstatus] at hst
  have h2t := h2.trans ht
  have hsucc := (h'.same_budget h2t ho hx hxv hst.1 hp).2
  have hpaid := ((h'.trans h2t).same_order ho hx hxv).2
  -- none of the order's refunds is open, so what is live has succeeded
  have hopen := hcond (by
    rw [Db.orderIs, Table.exist_iff]
    exact ⟨x, Table.get?_mem hx, by
      have hxid : x.id = o.id := Table.get?_key hx
      simp [orderCas, hid, hxid, hxs, hversion, hxv]⟩)
  have hlive : liveMinor t o.id = succeededMinor t o.id := by
    unfold liveMinor succeededMinor Table.sum
    refine congrArg sum (map_congr_left fun r hr => ?_)
    unfold liveWeight succeededWeight
    by_cases hro : r.orderId = o.id
    · obtain ⟨h1, h2⟩ := hopen r hr (hro.trans hid.symm)
      cases hrs : r.status <;> simp_all [RefundStatus.live]
    · simp [hro]
  rw [hlive, hpaid]
  exact (Nat.add_le_add_right hsucc _).trans hroom

theorem requestWalletShopRefund_ok (hnone : refundableOrder s input.orderId = none) :
    Ok (refundSpec strict) anyEnd (requestWalletShopRefund input e) ∅ s := by
  unfold requestWalletShopRefund
  refine Ok.query fun s1 h1 _ => ?_
  cases hrow : walletOrder s1 input.orderId with
  | none => trivial
  | some row =>
    obtain ⟨order, user⟩ := row
    have ho1 : s1.orders.get? input.orderId = some order := by
      simp only [walletOrder, Option.bind_eq_bind, Option.bind_eq_some_iff] at hrow
      obtain ⟨o, ho, u, -, hif⟩ := hrow
      split at hif
      · simp only [Option.some.injEq, Prod.mk.injEq] at hif
        rw [ho, hif.1]
      · cases hif
    have hid : order.id = input.orderId := Table.get?_key ho1
    rw [← hid] at ho1 hnone
    -- the order had no provider payment at the read before, and payments do not change
    have hnp : ¬PaidByProvider s1 order.id := by
      intro hp
      obtain ⟨a, c, ha, hc⟩ := (PaidByProvider.congr h1.attempts h1.channels).mp hp
      cases ho : s.orders.get? order.id with
      | none =>
        have := h1.noOrder _ ho
        rw [ho1] at this
        cases this
      | some o => simp [refundableOrder, ho, ha, hc] at hnone
    refine ok_require fun hst => Ok.query fun s2 h2 hinv2 => ok_require fun hamount => ?_
    rw [decide_eq_true_eq, reserved_sum] at hamount
    refine Ok.reads (S := refundSpec strict) (Q := anyEnd) (promotionRefundSplit_reads _ _) hinv2 (fun _ _ _ => trivial)
      fun rewardSplit s3 _ h3 hinv3 => ok_require fun _ => ?_
    refine Ok.reads (S := refundSpec strict) (Q := anyEnd) (revokeWhen_reads _ _ _ _) hinv3
      (fun _ _ _ => trivial) fun revoke s4 hrevoke h4 _ => ?_
    refine Ok.commit fun t ht hinv _ _ => ⟨fun _ => trivial, fun ns u hb => ?_⟩
    have h2t : Rely strict ∅ s2 t := h3.trans (h4.trans ht)
    have h1t : Rely strict ∅ s1 t := h2.trans h2t
    have hnpt : ¬PaidByProvider t order.id := fun hp =>
      hnp ((PaidByProvider.congr h1t.attempts h1t.channels).mp hp)
    refine ⟨∅, wallet_admits hinv hst (fun st h => (hrevoke st h).quiet) hnpt ?_ ?_ hb, ok_require_done⟩
    · intro hs x hx _ hxv
      have hlive := (Rely.same_budget h2 h2t ho1 hx hxv hst (Or.inl hs)).1
      have hpaid := (h1t.same_order ho1 hx hxv).2
      rw [hpaid]
      omega
    · intro hs x hx hxv
      exact h1t.recorded hs order.id order x ho1 hx hnp (by omega)

theorem requestShopRefund_ok (hinv : BudgetInv strict s) :
    Ok (refundSpec strict) anyEnd (requestShopRefund input e) ∅ s := by
  unfold requestShopRefund
  refine Ok.reads (S := refundSpec strict) (Q := anyEnd) (assertAgentRefundAmount_reads _ _) hinv (fun _ _ _ => trivial)
    fun _ s1 _ _ hinv1 => ok_require fun _ => Ok.query fun s2 _ hinv2 => ?_
  split
  · exact ok_require_done
  · refine Ok.bind (Ok.mono ?_ promotionRefundSplit_ok)
    rintro r o t ⟨rfl, hinv3, hread⟩
    cases r with
    | error err => trivial
    | ok split =>
      dsimp only
      split
      · next sp hsp =>
        obtain ⟨rfl, -⟩ := Option.filter_eq_some_iff.mp hsp
        exact refundAllocatedBalance_ok (hread sp rfl) hinv3
      · refine Ok.query fun s4 _ _ => ?_
        cases hro : refundableOrder s4 input.orderId with
        | none => exact requestWalletShopRefund_ok hro
        | some o =>
          simp only [refundableOrder, Option.bind_eq_bind, Option.bind_eq_some_iff,
            Option.some.injEq] at hro
          obtain ⟨order, ho, attempt, ha, channel, hc, rfl⟩ := hro
          have hid : order.id = input.orderId := Table.get?_key ho
          rw [← hid] at ho ha
          exact requestPaymentRefund_ok ho ⟨attempt, channel, ha, hc⟩

/-! ## Retrying -/

theorem retryShopRefund_ok : Ok (refundSpec strict) anyEnd (retryShopRefund refundId now) ∅ s := by
  unfold retryShopRefund
  refine Ok.query fun s1 _ hinv1 => ?_
  cases hr : (s1.refunds.get? refundId).filter fun r => s1.orders.exist fun o => o.id == r.orderId with
  | none => trivial
  | some refund =>
    have hget := (Option.filter_eq_some_iff.mp hr).1
    have hid : refund.id = refundId := Table.get?_key hget
    rw [← hid] at hget
    refine ok_require fun hst => Ok.commit fun t ht hinv _ hcond => ⟨fun _ => trivial, fun ns u hb => ?_⟩
    have hpaid : PaidByProvider s1 refund.orderId :=
      hinv1.provider refund (Table.get?_mem hget) (by rw [beq_iff_eq.mp hst]; decide)
    exact ⟨∅, retry_admits hinv (ht.same_refund hget)
      ((PaidByProvider.congr ht.attempts ht.channels).mpr hpaid) hcond hb, trivial⟩

/-! ## Processing and manual completion -/

/-- What a call knows of the refund it claimed: the row is its order's, the attempt its own. -/
structure Claimed (strict : Prop) (refund : Refund) (n : Nat) (s : Db) : Prop where
  inv : BudgetInv strict s
  row : ∃ r, s.refunds.get? refund.id = some r ∧ r.orderId = refund.orderId
  holds : Holds s {(refund.id, n)}

theorem Claimed.rely (h : Claimed strict refund n s) (ht : Rely strict {(refund.id, n)} s t)
    (hinv : BudgetInv strict t) : Claimed strict refund n t := by
  obtain ⟨r, hr, ho⟩ := h.row
  obtain ⟨x, hx, hs⟩ := ht.refunds _ r hr
  exact ⟨hinv, ⟨x, hx, hs.orderId.trans ho⟩, ht.held h.holds⟩

theorem holder_ok {x : Site} {sts : List (Stmt Db)} {k : List Nat → Call Site α} (h : Claimed strict refund n s)
    (hb : ∀ t, Claimed strict refund n t → ∀ ns u, batch sts 0 t = .ok (ns, u) →
      (refundSpec strict).Admits {(refund.id, n)} ∅ t u) (hk : ∀ ns, Reads (fun _ => True) (k ns)) :
    Ok (refundSpec strict) anyEnd (Prog.commit x sts >>= k) {(refund.id, n)} s :=
  Ok.commit fun t ht hinv _ _ => ⟨fun _ => trivial, fun ns u hok =>
    ⟨∅, hb t (h.rely ht hinv) ns u hok, (hk ns).ok ∅ u⟩⟩

section

variable (h : Claimed strict c.refund n s)
include h

theorem finalizeRefund_ok {status : RefundStatus} {fc : Option RefundFailure} {pid : Option ProviderRefundId} :
    Ok (refundSpec strict) anyEnd (finalizeRefund c status fc pid n now) {(c.refund.id, n)} s := by
  unfold finalizeRefund
  refine Ok.query fun s1 h1 hinv1 => ?_
  refine Ok.reads (S := refundSpec strict) (Q := anyEnd) (fullRefundStatements_reads _ _ _ _) hinv1
    (fun _ _ _ => trivial) fun close s2 hclose h2 hinv2 => ?_
  refine holder_ok ((h.rely h1 hinv1).rely h2 hinv2) (fun t ht ns u hb => ?_) fun _ => trivial
  exact finalize_admits ht.inv ht.row ht.holds (fun st h => (hclose st h).quiet) hb

theorem recordRefundProviderFailure_ok :
    Ok (refundSpec strict) anyEnd (recordRefundProviderFailure c n now) {(c.refund.id, n)} s := by
  unfold recordRefundProviderFailure
  by_cases hn : n < 5
  · rw [if_pos hn]
    refine holder_ok h (fun t ht ns u hb => ?_) fun ns => by split <;> trivial
    refine holder_admits ht.inv ht.row ?_ ?_ hb
    · exact fun r => ⟨rfl, ⟨rfl, rfl, le_rfl⟩, fun h => by cases h⟩
    intro st hst
    rw [mem_singleton.mp hst]
    exact keeps_quiet (refundOutboxStatement_keeps (fun _ _ => rfl) _ _ _ _ _)
  · rw [if_neg hn]
    exact finalizeRefund_ok h

theorem settleProviderAnswer_ok {answer : ProviderAnswer} :
    Ok (refundSpec strict) anyEnd (settleProviderAnswer c n answer now) {(c.refund.id, n)} s := by
  cases answer with
  | pending pid =>
    refine holder_ok h (fun t ht ns u hb => ?_) fun _ => trivial
    refine holder_admits ht.inv ht.row ?_ ?_ hb
    · exact fun r => ⟨rfl, ⟨rfl, rfl, le_rfl⟩, fun h => by cases h⟩
    intro st hst
    rw [mem_singleton.mp hst]
    exact keeps_quiet (refundOutboxStatement_keeps (fun _ _ => rfl) _ _ _ _ _)
  | succeeded pid fc => exact finalizeRefund_ok h
  | failed pid fc => exact finalizeRefund_ok h
  | cancelled pid fc => exact finalizeRefund_ok h
  | reconciliationRequired =>
    refine holder_ok h (fun t ht ns u hb => ?_) fun _ => trivial
    refine holder_admits ht.inv ht.row ?_ ?_ hb
    · exact fun r => ⟨rfl, ⟨rfl, rfl, le_rfl⟩, fun h => by cases h⟩
    intro st hst
    cases hst
  | error => exact recordRefundProviderFailure_ok h

end

theorem loadRefund_get? (h : loadRefund s refundId = some c) : s.refunds.get? c.refund.id = some c.refund := by
  simp only [loadRefund, Option.bind_eq_bind, Option.bind_eq_some_iff, Option.some.injEq] at h
  obtain ⟨r, hr, o, -, pa, -, pc, -, rfl⟩ := h
  have hid : r.id = refundId := Table.get?_key hr
  rw [hid]
  exact hr

theorem claimed_one {k : Nat} (hrow : ∃ r, s.refunds.get? refund.id = some r ∧ r.orderId = refund.orderId)
    (hadm : (refundSpec strict).Admits ∅ (claimed refund.id n k) s t)
    (hholds : Holds t (claimed refund.id n k)) (hone : k = 1) :
    claimed refund.id n k = {(refund.id, n)} ∧ Claimed strict refund n t := by
  have hown : claimed refund.id n k = {(refund.id, n)} := if_pos hone
  rw [hown] at hholds
  obtain ⟨r, hr, hro⟩ := hrow
  obtain ⟨x, hx, hs⟩ := (hadm.rely ∅ (Set.empty_subset _) (Set.empty_disjoint _)).refunds _ r hr
  exact ⟨hown, hadm.inv, ⟨x, hx, hs.orderId.trans hro⟩, hholds⟩

theorem claimRefundAttempt_ok (hget : s.refunds.get? refund.id = some refund) :
    Ok (refundSpec strict) (fun r own t => ∀ n, r = .ok (some n) → own = {(refund.id, n)} ∧ Claimed strict refund n t)
      (claimRefundAttempt refund now) ∅ s := by
  unfold claimRefundAttempt
  refine Ok.commit fun t ht hinv _ hcond => ⟨(fun _ _ h => by cases h), fun ns u hb => ?_⟩
  obtain ⟨k, u', ns', h1, hb', rfl⟩ := batch_cons_ok hb
  simp only [batch_nil, Except.ok.injEq, Prod.mk.injEq] at hb'
  obtain ⟨-, rfl⟩ := hb'
  obtain ⟨hk, hrows, ho, he, ha, hc⟩ := updateRefunds_effect h1 (fun _ _ => rfl)
  have hp : ∀ r, claimable refund.id refund.attemptCount now r = true →
      (r.id = refund.id ∧ r.attemptCount = refund.attemptCount) ∧
        (r.status = .pending ∨ r.status = .processing ∨ r.status = .failed) := by
    intro r h
    simp only [claimable, Bool.and_eq_true, Bool.or_eq_true, beq_iff_eq, or_assoc] at h
    exact h.1.1
  have hrow := ht.same_refund hget
  obtain ⟨hadm, hholds⟩ : (refundSpec strict).Admits ∅ (claimed refund.id (refund.attemptCount + 1) k)
      t u' ∧ Holds u' (claimed refund.id (refund.attemptCount + 1) k) := by
    refine claim_admits hinv hrow (fun r h => ⟨(hp r h).1.1, (hp r h).1.2, ?_⟩) (fun r h => ?_)
      (fun r hr h hl => hcond r hr h ?_) hk hrows ho he ha hc
    · rcases (hp r h).2 with h | h | h <;> rw [h] <;> decide
    · exact ⟨rfl, ⟨rfl, rfl, (hp r h).1.2 ▸ Nat.le_succ _⟩, rfl, rfl⟩
    · rcases (hp r h).2 with h | h | h
      · rw [h] at hl
        cases hl
      · rw [h] at hl
        cases hl
      · exact h
  refine ⟨_, hadm, fun n hn => ?_⟩
  by_cases hone : k = 1
  · simp only [headD_cons, hone, if_true, Except.ok.injEq, Option.some.injEq] at hn
    subst hn
    exact claimed_one hrow hadm hholds hone
  · simp [hone] at hn

theorem processShopRefund_ok {e : ProcessRefundEnv} :
    Ok (refundSpec strict) anyEnd (processShopRefund refundId e) ∅ s := by
  unfold processShopRefund
  refine Ok.query fun s1 _ _ => ?_
  cases hload : loadRefund s1 refundId with
  | none => trivial
  | some c =>
    dsimp only
    split
    · trivial
    refine ok_require fun _ => Ok.bind (Ok.mono ?_ (claimRefundAttempt_ok (loadRefund_get? hload)))
    intro r own t h
    cases r with
    | error err => trivial
    | ok attempt? =>
      cases attempt? with
      | none => exact (refundDuplicate_reads c).ok own t
      | some n =>
        obtain ⟨rfl, hclaimed⟩ := h n rfl
        exact settleProviderAnswer_ok hclaimed

theorem completeManualShopRefund_ok {reference : Option Nat} {returned : Bool} :
    Ok (refundSpec strict) anyEnd (completeManualShopRefund refundId reference returned now) ∅ s := by
  unfold completeManualShopRefund
  refine ok_require fun _ => Ok.query fun s1 _ _ => ?_
  cases hload : loadRefund s1 refundId with
  | none => trivial
  | some c =>
    dsimp only
    split
    · trivial
    refine ok_require fun _ => ?_
    cases reference with
    | none => trivial
    | some ref =>
      have hget := loadRefund_get? hload
      refine Ok.commit fun t ht hinv _ _ => ⟨fun _ => trivial, fun ns u hb => ?_⟩
      obtain ⟨k, u', ns', h1, hb', rfl⟩ := batch_cons_ok hb
      simp only [batch_nil, Except.ok.injEq, Prod.mk.injEq] at hb'
      obtain ⟨-, rfl⟩ := hb'
      obtain ⟨hk, t', hrows, rfl⟩ := update_ok h1
      have hp : ∀ r : Refund, (r.id == c.refund.id && r.status == .processing &&
          r.failureCode == some .manualActionRequired && r.attemptCount == c.refund.attemptCount) = true →
          r.id = c.refund.id ∧ r.status = .processing ∧ r.attemptCount = c.refund.attemptCount := by
        intro r h
        simp only [Bool.and_eq_true, beq_iff_eq] at h
        exact ⟨h.1.1.1, h.1.1.2, h.2⟩
      have hrow := ht.same_refund hget
      obtain ⟨hadm, hholds⟩ : (refundSpec strict).Admits ∅
          (claimed c.refund.id (c.refund.attemptCount + 1) k) t (Db.refundsT.set t t') ∧
          Holds (Db.refundsT.set t t') (claimed c.refund.id (c.refund.attemptCount + 1) k) := by
        refine claim_admits hinv hrow (fun r h => ⟨(hp r h).1, (hp r h).2.2, ?_⟩) (fun r h => ?_)
          (fun r hr h hl => ?_) hk hrows rfl rfl rfl rfl
        · rw [(hp r h).2.1]
          decide
        · exact ⟨rfl, ⟨rfl, rfl, (hp r h).2.2 ▸ Nat.le_succ _⟩, (hp r h).2.1, rfl⟩
        · rw [(hp r h).2.1] at hl
          cases hl
      refine ⟨_, hadm, ?_⟩
      by_cases hone : k = 1
      · obtain ⟨hown, hclaimed⟩ := claimed_one hrow hadm hholds hone
        rw [hown]
        simp only [headD_cons, hone, if_true]
        exact finalizeRefund_ok hclaimed
      · simp only [headD_cons, hone, if_false]
        exact (refundDuplicate_reads c).ok _ _

end Calls

end Gmshop
