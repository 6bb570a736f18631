import GmshopEdge.Refunds.Cap

/-!
# A full refund is final

The refund calls together with the delivery calls. A delivery moves an order only from `paid` or
`fulfilling` (`OrderAdvance`), so it respects what the refund calls rely on, though the batches of
upgrade deliveries advance an order's version without an event (hence `refundSpec False`). A failed
refund that is taken up again after another one returned the money puts the order back to the status
it remembers; where that never happens (`budgetChecked`) a refunded order stays refunded.
-/

namespace Gmshop

open List Sql Stmt

/-! ## Deliveries and the refund tables -/

/-- An order row as it stands or moved on from `paid` or `fulfilling`. -/
def AdvancedRow (o o' : ShopOrder) : Prop :=
  o' = o ∨ (o.status.deliverable = true ∧ o'.id = o.id ∧ o'.paidMinor = o.paidMinor ∧ o.version < o'.version)

/-- The refund tables stand, up to new events, and orders only advance. -/
structure OrderAdvance (s s' : Db) : Prop where
  orders : ∃ h, (∀ o, AdvancedRow o (h o)) ∧ s'.orders.rows = s.orders.rows.map h
  refunds : s'.refunds = s.refunds
  attempts : s'.attempts = s.attempts
  channels : s'.channels = s.channels
  events : ∀ ev ∈ s.events.rows, ev ∈ s'.events.rows

theorem AdvancedRow.trans {a b c : ShopOrder} (h : AdvancedRow a b) (h' : AdvancedRow b c) : AdvancedRow a c := by
  rcases h with rfl | ⟨hst, hid, hp, hv⟩
  · exact h'
  · rcases h' with rfl | ⟨-, hid', hp', hv'⟩
    · exact Or.inr ⟨hst, hid, hp, hv⟩
    · exact Or.inr ⟨hst, hid'.trans hid, hp'.trans hp, hv.trans hv'⟩

variable {s s' t u : Db} {d : DeliveryRef}

theorem RefundQuiet.advance (h : RefundQuiet s s') : OrderAdvance s s' :=
  ⟨⟨id, fun _ => Or.inl rfl, by rw [h.orders, map_id]⟩, h.refunds, h.attempts, h.channels, h.events⟩

theorem OrderAdvance.trans {a b c : Db} (h : OrderAdvance a b) (h' : OrderAdvance b c) : OrderAdvance a c := by
  obtain ⟨f, hf, hrows⟩ := h.orders
  obtain ⟨g, hg, hrows'⟩ := h'.orders
  exact ⟨⟨g ∘ f, fun o => (hf o).trans (hg (f o)), by rw [hrows', hrows, map_map]⟩,
    h'.refunds.trans h.refunds, h'.attempts.trans h.attempts, h'.channels.trans h.channels,
    fun ev he => h'.events ev (h.events ev he)⟩

theorem batch_advance {sts : List (Stmt Db)} (h : ∀ st ∈ sts, Within OrderAdvance st) {c : Nat}
    {ns : List Nat} (hb : batch sts c s = .ok (ns, s')) : OrderAdvance s s' :=
  batch_within (fun s => (RefundQuiet.refl s).advance) (fun _ _ _ => OrderAdvance.trans) h hb

theorem Within.advance {st : Stmt Db} (h : Within RefundQuiet st) : Within OrderAdvance st :=
  fun c s n s' hs => (h c s n s' hs).advance

theorem updateOrders_advance {p : Db → ShopOrder → Bool} {f : ShopOrder → ShopOrder}
    (hid : ∀ o, (f o).id = o.id) (hpaid : ∀ o, (f o).paidMinor = o.paidMinor)
    (h : ∀ s o, p s o = true → o.status.deliverable = true ∧ o.version < (f o).version) :
    Within OrderAdvance (updateOrders p (fun _ => f)) := by
  intro c s n s' hs
  obtain ⟨-, hrows, hr, he, ha, hc⟩ := updateOrders_effect hs fun _ => hid
  refine ⟨⟨_, fun o => ?_, hrows⟩, hr, ha, hc, fun ev hev => he ▸ hev⟩
  split
  · next hp => exact Or.inr ⟨(h s o hp).1, hid o, hpaid o, (h s o hp).2⟩
  · exact Or.inl rfl

theorem orderCas_advance {i : Id} {st st' : ShopOrderStatus} {v : Nat} {now : Time} (hst : st.deliverable = true) :
    Within OrderAdvance (updateOrders (fun _ o => orderCas i st v o) (fun _ o => setStatus st' (v + 1) now o)) := by
  refine updateOrders_advance (fun _ => rfl) (fun _ => rfl) fun _ o hp => ?_
  simp only [orderCas, Bool.and_eq_true, beq_iff_eq] at hp
  refine ⟨by rw [hp.2.1]; exact hst, ?_⟩
  show o.version < v + 1
  rw [hp.2.2]
  exact Nat.lt_succ_self v

theorem completeOrderStatement_advance (i : Id) (now : Time) :
    Within OrderAdvance (completeOrderStatement i now) := by
  refine updateOrders_advance (fun _ => rfl) (fun _ => rfl) fun _ o hp => ?_
  simp only [Bool.and_eq_true] at hp
  exact ⟨hp.1.2, Nat.lt_succ_self _⟩

theorem orderProgress_advance (hst : d.orderStatus.deliverable = true) (n : Nat) (now : Time) :
    ∀ st ∈ orderProgressStatements d n now, Within OrderAdvance st := by
  intro st hmem
  exact each_three (orderCas_advance hst) (Within.advance (insertEvents_quiet _ _))
    (Within.advance (keeps_quiet (insert_off rfl))) _ hmem

theorem activateGrants_advance (i : Id) (now : Time) :
    ∀ st ∈ activateEntitlementGrantStatements i now, Within OrderAdvance st := fun st hst =>
  Within.advance (keeps_quiet (activateEntitlementGrantStatements_keep offEntitlements_core i now false st hst))

theorem upgradeBatch_advance (row : UpgradeRow) (d : Id) (content : Nat) (now : Time) :
    ∀ st ∈ upgradeBatch row d content now, Within OrderAdvance st := by
  intro st hst
  simp only [upgradeBatch, mem_append, mem_cons, not_mem_nil, or_false] at hst
  rcases hst with (hst | hst) | hst
  · rcases hst with rfl | rfl
    · exact Within.advance (keeps_quiet (update_off rfl))
    · exact Within.advance (keeps_quiet (update_off rfl))
  · exact activateGrants_advance _ _ st hst
  · rcases hst with rfl | rfl | rfl
    · exact completeOrderStatement_advance _ _
    · exact Within.advance (insertEvents_quiet _ _)
    · exact Within.advance (keeps_quiet (insert_off rfl))

theorem agentBatch_advance (row : AgentRow) (d : Id) (now : Time) :
    ∀ st ∈ agentBatch row d now, Within OrderAdvance st := by
  intro st hst
  simp only [agentBatch, mem_append, mem_cons, not_mem_nil, or_false] at hst
  rcases hst with (hst | hst) | hst
  · rcases hst with rfl | rfl
    · exact Within.advance (keeps_quiet (update_off rfl))
    · exact Within.advance (keeps_quiet (update_off rfl))
  · exact activateGrants_advance _ _ st hst
  · rcases hst with rfl | rfl
    · exact completeOrderStatement_advance _ _
    · exact Within.advance (insertEvents_quiet _ _)

theorem deliverBatch_advance {c : DeliveryContext} (hst : c.orderStatus.deliverable = true)
    (content : Option DeliveryContent) (n : Nat) (now : Time) :
    ∀ st ∈ deliverBatch c content n now, Within OrderAdvance st := by
  intro st hmem
  simp only [deliverBatch, mem_append, mem_cons, not_mem_nil, or_false] at hmem
  rcases hmem with (((hmem | hmem) | hmem) | rfl) | hmem
  · rcases hmem with rfl | rfl
    · exact Within.advance (keeps_quiet (update_off rfl))
    · exact Within.advance (keeps_quiet abortWhen_keeps)
  · split at hmem
    · rw [mem_singleton.mp hmem]
      exact Within.advance (keeps_quiet (update_off rfl))
    · cases hmem
  · exact orderProgress_advance hst n now st hmem
  · exact Within.advance (keeps_quiet (update_off rfl))
  · split at hmem
    · exact activateGrants_advance _ _ st hmem
    · cases hmem

theorem startManualBatch_advance (hst : d.orderStatus.deliverable = true) (now : Time) :
    ∀ st ∈ startManualBatch d now, Within OrderAdvance st := by
  intro st hmem
  exact each_three (Within.advance (keeps_quiet (update_off rfl))) (orderCas_advance hst)
    (Within.advance (insertEvents_quiet _ _)) _ hmem

theorem completeManualBatch_advance (hst : d.orderStatus.deliverable = true) (content n : Nat) (now : Time) :
    ∀ st ∈ completeManualBatch d content n now, Within OrderAdvance st := by
  intro st hmem
  simp only [completeManualBatch, mem_append, mem_cons, not_mem_nil, or_false] at hmem
  rcases hmem with (rfl | hmem) | hmem
  · exact Within.advance (keeps_quiet (update_off rfl))
  · exact orderProgress_advance hst n now st hmem
  · exact activateGrants_advance _ _ st hmem

theorem DeliveryIdle.advance (h : DeliveryIdle t u) : OrderAdvance t u := by
  have hc := h.core
  simp only [deliveryCore, Prod.mk.injEq] at hc
  obtain ⟨⟨ho, -, he, hr, ha, hch⟩, -⟩ := hc
  exact RefundQuiet.advance ⟨ho, hr, ha, hch, by rw [he]; exact fun _ h => h⟩

theorem advance_admits (hinv : BudgetInv False t) (h : OrderAdvance t u) : (refundSpec False).Admits ∅ ∅ t u := by
  obtain ⟨f, hf, hrows⟩ := h.orders
  have hkey : ∀ o, (f o).id = o.id := by
    intro o
    rcases hf o with ho | ho
    · rw [ho]
    · exact ho.2.1
  have hget (k : Id) : u.orders.get? k = (t.orders.get? k).map f := Table.get?_map hrows hkey k
  have hstep : ∀ o, OrderStep o (f o) := by
    intro o
    rcases hf o with ho | ⟨-, hid, hp, hv⟩
    · rw [ho]
      exact OrderStep.refl o
    · exact ⟨hid, hp, hv.le, fun heq => absurd heq.symm hv.ne⟩
  have hlive (i : Id) : liveMinor u i = liveMinor t i := by rw [liveMinor, h.refunds, liveMinor]
  have hsucc (i : Id) : succeededMinor u i = succeededMinor t i := by
    rw [succeededMinor, h.refunds, succeededMinor]
  refine ⟨⟨?_, ?_⟩, trivial, fun own _ _ => ?_, Set.empty_subset _⟩
  · intro i o ho hp
    rw [hget] at ho
    obtain ⟨o0, h0, rfl⟩ := Option.map_eq_some_iff.mp ho
    rw [hlive, (hstep o0).paid]
    exact hinv.cap i o0 h0 (hp.imp_right (PaidByProvider.congr h.attempts h.channels).mp)
  · intro r hr hs
    rw [h.refunds] at hr
    exact (PaidByProvider.congr h.attempts h.channels).mpr (hinv.provider r hr hs)
  · refine ⟨h.attempts, h.channels, ?_, ?_, ?_, ?_, h.events, fun hs => hs.elim, ?_, ?_⟩
    · intro i o ho
      exact ⟨f o, by rw [hget, ho]; rfl, hstep o⟩
    · intro i ho
      rw [hget, ho]
      rfl
    · intro i r hr
      exact ⟨r, by rw [h.refunds]; exact hr, RefundStep.refl r⟩
    · intro i _ _ _ _ _ _ _
      exact ⟨(hlive i).le, (hsucc i).le⟩
    · intro i o ho hfull
      refine ⟨f o, by rw [hget, ho]; rfl, ?_, ?_⟩
      · rcases hf o with hfo | ⟨hst, -⟩
        · rw [hfo]
          exact hfull.1
        · rcases hfull.1 with hs | hs <;> rw [hs] at hst <;> cases hst
      · rw [(hstep o).paid, (hstep o).id, hsucc]
        exact hfull.2
    · intro hh p hp r hr
      rw [h.refunds] at hr
      exact hh p hp r hr

theorem refund_deliverySteps : DeliverySteps (refundSpec False) (fun _ _ _ _ => True) where
  link _ _ _ _ _ _ _ _ := trivial
  stable _ _ _ _ _ _ _ := trivial
  idle _ _ _ hinv _ h := advance_admits hinv h.advance
  upgrade _ _ _ _ _ _ _ hinv _ _ hb := advance_admits hinv (batch_advance (upgradeBatch_advance _ _ _ _) hb)
  agent _ _ _ _ _ _ hinv _ _ hb := advance_admits hinv (batch_advance (agentBatch_advance _ _ _) hb)
  process _ _ _ _ _ _ _ hinv _ hst _ _ hb :=
    advance_admits hinv (batch_advance (deliverBatch_advance hst _ _ _) hb)
  start _ _ _ _ _ hinv _ hst _ hb :=
    advance_admits hinv (batch_advance (startManualBatch_advance hst _) hb)
  complete _ _ _ _ _ _ _ hinv _ hst _ hb :=
    advance_admits hinv (batch_advance (completeManualBatch_advance hst _ _ _) hb)

/-! ## The system -/

theorem refundOrDelivery_ok (c : RefundCall ⊕ DeliveryCall) (s : Db) (h : BudgetInv False s) :
    Prog.Ok (refundSpec False) Prog.anyEnd (refundOrDelivery c) ∅ s := by
  cases c with
  | inl c =>
    refine Prog.Ok.bind (Prog.Ok.mono (fun r o t _ => ?_) (c.ok s h))
    cases r <;> trivial
  | inr c =>
    exact (Prog.Bare.bind (c.bare refund_deliverySteps s) fun _ _ _ => Prog.Bare.done _).ok

/-- In every run whose batches are `budgetChecked`, an order that a full refund closed is not put
back to `paid`, `fulfilling`, `completed` or `failed`. -/
theorem refunded_stays_refunded {s : Db} (h0 : s.refunds.rows = [])
    {w w' : World Db Site DomainError (RefundReply ⊕ DeliveryReply)}
    (hrun : Runs refundOrDelivery budgetChecked ⟨s, []⟩ w)
    (hlater : Runs refundOrDelivery budgetChecked w w') {i : Id} {o : ShopOrder}
    (ho : w.db.orders.get? i = some o) (hst : o.status = .refunded)
    (hfull : o.paidMinor ≤ succeededMinor w.db i) :
    ∃ o', w'.db.orders.get? i = some o' ∧ (o'.status = .refunded ∨ o'.status = .refunding) := by
  have hgood := (Runs.sound (refundSpec False) refundOrDelivery_ok hrun (good_idle _ (BudgetInv.init h0))).1
  have hrely := (Runs.sound (refundSpec False) refundOrDelivery_ok hlater hgood).2
  have hid : o.id = i := Table.get?_key ho
  obtain ⟨o', ho', hc⟩ := hrely.closed i o ho ⟨Or.inl hst, by rw [hid]; exact hfull⟩
  exact ⟨o', ho', hc.1⟩

/-! ## Two runs -/

def refundedWorld : World Db Site DomainError (RefundReply ⊕ DeliveryReply) :=
  World.exec refundOrDelivery budgetChecked ⟨paidDownloadDb, []⟩
    (oneByOne [.inl (fullRefund 10 1 5), .inl (answered 10 (.succeeded (.provider 1) none) 6)] 12)

def refundedThenDelivered : World Db Site DomainError (RefundReply ⊕ DeliveryReply) :=
  World.exec refundOrDelivery budgetChecked refundedWorld
    (.start (.inr (.process 1 (offlineEnv 8))) :: List.replicate 12 (.run 2))

theorem refunded_stays_refunded_run :
    (∃ d, refundedThenDelivered.db.deliveries.get? 1 = some d ∧ d.status = .failed) ∧
      ∃ o', refundedThenDelivered.db.orders.get? 1 = some o' ∧ (o'.status = .refunded ∨ o'.status = .refunding) :=
  have ho : refundedWorld.db.orders.get? 1 = some
      { id := 1, status := .refunded, version := 3, totalMinor := 100, paidMinor := 100
        updatedAt := 7 } := by decide
  ⟨⟨_, (by decide : refundedThenDelivered.db.deliveries.get? 1 = some
      { id := 1, orderItemId := 1, deliveryType := .download, status := .failed
        errorCode := some .orderRefunded }), rfl⟩,
    refunded_stays_refunded rfl (World.exec_runs _ _ _ _) (World.exec_runs _ _ _ _) ho rfl (by decide)⟩

def secondRefundWorld : World Db Site DomainError (RefundReply ⊕ DeliveryReply) :=
  World.exec refundOrDelivery anySite ⟨paidDownloadDb, []⟩
    (oneByOne [.inl (fullRefund 10 1 5), .inl (answered 10 (.failed (.provider 1) none) 6),
      .inl (fullRefund 11 2 8), .inl (answered 11 (.succeeded (.provider 2) none) 9)] 12)

def retriedAfterRefund : World Db Site DomainError (RefundReply ⊕ DeliveryReply) :=
  World.exec refundOrDelivery anySite secondRefundWorld
    ([Move.start (.inl (.retry 10 11))] ++ List.replicate 12 (Move.run 4) ++
      [Move.start (.inl (answered 10 (.failed (.provider 1) none) 12))] ++ List.replicate 12 (Move.run 5))

/-- The retried refund puts the refunded order back to `paid`. -/
theorem not_refunded_stays_refunded : ¬∀ s : Db, s.refunds.rows = [] →
      ∀ w w' : World Db Site DomainError (RefundReply ⊕ DeliveryReply),
        Runs refundOrDelivery anySite ⟨s, []⟩ w → Runs refundOrDelivery anySite w w' →
        ∀ i o, w.db.orders.get? i = some o → o.status = .refunded → o.paidMinor ≤ succeededMinor w.db i →
          ∀ o', w'.db.orders.get? i = some o' → o'.status ≠ .paid ∧ o'.status ≠ .fulfilling ∧
            o'.status ≠ .completed ∧ o'.status ≠ .failed := by
  intro h
  have hbad := h paidDownloadDb rfl secondRefundWorld retriedAfterRefund (World.exec_runs _ _ _ _)
    (World.exec_runs _ _ _ _) 1
    { id := 1, status := .refunded, version := 5, totalMinor := 100, paidMinor := 100
      updatedAt := 10 } (by set_option maxRecDepth 50000 in decide) rfl
    (by set_option maxRecDepth 50000 in decide)
    { id := 1, status := .paid, version := 7, totalMinor := 100, paidMinor := 100
      updatedAt := 13 } (by set_option maxRecDepth 50000 in decide)
  exact hbad.1 rfl

end Gmshop
