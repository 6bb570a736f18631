import GmshopEdge.Orders.Statements

/-!
# A paid order has the event of its version

Every batch that pays an order adds the order's event for the version it was paid at, and an event is
unique for its order and version. So a batch whose swap misses an order that another batch has paid at
the same version finds the row it selects for its event, and aborts on it (`PaidHaveEvent.swap_hit`).
-/

namespace Gmshop

open List Sql Stmt Table

/-- Every paid order has the event of the version it was paid at. -/
def PaidHaveEvent (s : Db) : Prop :=
  ∀ o ∈ s.orders.rows, o.status = .paid → ∃ ev ∈ s.events.rows, ev.orderId = o.id ∧ ev.orderVersion = some o.version

instance (s : Db) : Decidable (PaidHaveEvent s) := by
  unfold PaidHaveEvent
  infer_instance

/-! ## Steps that pay nothing -/

/-- A step after which only orders are paid that were so before, at the same version. -/
structure NonePaid (s t : Db) : Prop where
  events : ∀ ev ∈ s.events.rows, ev ∈ t.events.rows
  orders : ∀ o ∈ t.orders.rows, o.status = .paid →
    ∃ o' ∈ s.orders.rows, o'.id = o.id ∧ o'.status = .paid ∧ o'.version = o.version

theorem NonePaid.refl (s : Db) : NonePaid s s := ⟨fun _ h => h, fun o ho hp => ⟨o, ho, rfl, hp, rfl⟩⟩

variable {s t : Db} {st : Stmt Db} {p : Db → ShopOrder → Bool} {c n : Nat} {f : Db → ShopOrder → ShopOrder}
  {sts : List (Stmt Db)} {o : ShopOrder} {g : ShopOrder → ShopOrderEvent} {orderId : Id}

theorem NonePaid.trans {u : Db} (h : NonePaid s t) (h' : NonePaid t u) : NonePaid s u := by
  refine ⟨fun ev hev => h'.events ev (h.events ev hev), fun o ho hp => ?_⟩
  obtain ⟨b, hb, hid, hbp, hv⟩ := h'.orders o ho hp
  obtain ⟨a, ha, haid, hap, hav⟩ := h.orders b hb hbp
  exact ⟨a, ha, haid.trans hid, hap, hav.trans hv⟩

theorem PaidHaveEvent.step (h : PaidHaveEvent s) (hst : NonePaid s t) : PaidHaveEvent t := by
  intro o ho hp
  obtain ⟨o', ho', hid, hp', hv⟩ := hst.orders o ho hp
  obtain ⟨ev, hev, heo, hev'⟩ := h o' ho' hp'
  exact ⟨ev, hst.events ev hev, heo.trans hid, hev'.trans (congrArg some hv)⟩

theorem keeps_nonePaid (h : Keeps (fun s => (s.orders, s.events)) st) : Within NonePaid st := by
  intro c s n s' hs
  have hk := h c s n s' hs
  simp only [Prod.mk.injEq] at hk
  refine ⟨fun ev hev => by rw [hk.2]; exact hev, fun o ho hp => ⟨o, ?_, rfl, hp, rfl⟩⟩
  rw [hk.1] at ho
  exact ho

theorem orders_nonePaid {g : ShopOrder → ShopOrder} (he : t.events = s.events)
    (ho : t.orders.rows = s.orders.rows.map g) (hg : ∀ o ∈ s.orders.rows, (g o).status = .paid →
      o.id = (g o).id ∧ o.status = .paid ∧ o.version = (g o).version) : NonePaid s t := by
  refine ⟨fun ev hev => by rw [he]; exact hev, fun o hmem hp => ?_⟩
  rw [ho] at hmem
  obtain ⟨o', ho', rfl⟩ := mem_map.mp hmem
  exact ⟨o', ho', hg o' ho' hp⟩

theorem updateOrders_events (h : updateOrders p f c s = .ok (n, t)) : t.events = s.events :=
  Keeps.eq (updateOrders_keeps (by constructor <;> exact fun _ _ => rfl) fun _ _ => rfl) h

theorem updateOrders_nonePaid (hf : ∀ s o, (f s o).id = o.id)
    (hs : ∀ s o, p s o = true → (f s o).status ≠ .paid) : Within NonePaid (updateOrders p f) := by
  intro c s n t h
  refine orders_nonePaid (updateOrders_events h) (updateOrders_rows hf h).2 fun o _ hp => ?_
  by_cases hpo : p s o = true
  · rw [if_pos hpo] at hp
    exact absurd hp (hs s o hpo)
  · rw [if_neg hpo] at hp ⊢
    exact ⟨rfl, hp, rfl⟩

theorem insertEvents_nonePaid {c : OnConflict} {g : Db → List ShopOrderEvent} :
    Within NonePaid (insert Db.eventsT c g) := by
  intro k s n t h
  obtain ⟨-, te, hte, rfl⟩ := insert_ok h
  refine ⟨fun ev hev => ?_, fun o ho hp => ⟨o, ho, rfl, hp, rfl⟩⟩
  show ev ∈ te.rows
  rw [hte]
  exact mem_append_left _ hev

theorem newOrders_nonePaid {g : Db → List ShopOrder} (hg : ∀ s, ∀ o ∈ g s, o.status = .pendingPayment) :
    Within NonePaid (insert Db.ordersT .abort g) := by
  intro c s n t h
  obtain ⟨-, t', ht, rfl⟩ := insert_abort_ok h
  refine ⟨fun ev hev => hev, fun o ho hp => ?_⟩
  have hmem : o ∈ t'.rows := ho
  rw [ht] at hmem
  rcases mem_append.mp hmem with hold | hnew
  · exact ⟨o, hold, rfl, hp, rfl⟩
  · rw [hg s o hnew] at hp
    cases hp

theorem updateAttempts_nonePaid {p : Db → PaymentAttempt → Bool}
    {f : Db → PaymentAttempt → PaymentAttempt} : Within NonePaid (updateAttempts p f) := by
  refine updateEach_within .refl (fun _ _ _ => .trans) (fun _ _ _ => forall_mem_nil _)
    (fun _ _ => keeps_nonePaid (update_off rfl)) fun _ _ _ => each_if fun _ => each_two ?_ ?_
  · exact keeps_nonePaid (updateHolds_keeps (by constructor <;> exact fun _ _ => rfl))
  · exact updateOrders_nonePaid (fun _ _ => rfl) fun _ _ _ => nofun

theorem AttemptStmt.nonePaid (h : AttemptStmt st) : Within NonePaid st :=
  h.within (fun _ => keeps_nonePaid) (fun _ _ => updateAttempts_nonePaid) fun _ _ => rfl

theorem QuietStmt.nonePaid {paying ordering money : Prop} (h : QuietStmt paying ordering money st) :
    Within NonePaid st := by
  refine h.within (fun _ => keeps_nonePaid)
    (fun _ h => keeps_nonePaid (h.keeps (by constructor; constructor; all_goals exact fun _ _ => rfl)))
    (fun _ h => h.nonePaid)
    (fun _ p f hf hs c s n s' h => ?_) (fun _ _ hg => newOrders_nonePaid hg) (fun _ _ _ => insertEvents_nonePaid)
    (fun _ _ c s n s' h => ?_) (fun _ _ => rfl) (fun _ _ => rfl) fun _ _ => rfl
  · obtain ⟨-, t, ht, rfl⟩ := update_ok h
    refine orders_nonePaid rfl ht fun o _ hp => ?_
    by_cases hpo : p s o = true
    · rw [if_pos hpo] at hp ⊢
      exact ⟨(hf s o).id.symm, (hs s o).1 ▸ hp, (hs s o).2.symm⟩
    · rw [if_neg hpo] at hp ⊢
      exact ⟨rfl, hp, rfl⟩
  · obtain ⟨ev, te, -, hte, -, rfl⟩ := insertRequired_ok h
    refine ⟨fun ev hev => ?_, fun o ho hp => ⟨o, ho, rfl, hp, rfl⟩⟩
    show ev ∈ te.rows
    rw [hte]
    exact mem_append_left _ hev

theorem batch_nonePaid (h : ∀ st ∈ sts, Within NonePaid st) {s' : Db} {ns : List Nat}
    (hb : batch sts c s = .ok (ns, s')) : NonePaid s s' :=
  batch_within .refl (fun _ _ _ => .trans) h hb

/-! ## The swap and its event -/

section Swap

variable {s t u : Db} {p : Db → ShopOrder → Bool} {f : Db → ShopOrder → ShopOrder} {c n : Nat}
  {orderId : Id} {version : Nat}

section

variable (hi : PaidHaveEvent s) (h : updateOrders p f c s = .ok (n, t)) (hf : ∀ s o, (f s o).id = o.id)
include hi h hf

theorem PaidHaveEvent.swap (hp : ∀ s o, p s o = true → o.id = orderId ∧ (f s o).version = version)
    (ho : u.orders = t.orders) (hev : ∀ ev ∈ t.events.rows, ev ∈ u.events.rows)
    (hnew : ∀ o, t.orders.get? orderId = some o → paidAt version o = true →
      ∃ ev ∈ u.events.rows, ev.orderId = orderId ∧ ev.orderVersion = some version) : PaidHaveEvent u := by
  have hrows := (updateOrders_rows hf h).2
  intro o hmem hpaid
  rw [ho] at hmem
  have hget := mem_get? hmem
  rw [hrows] at hmem
  obtain ⟨o', ho', rfl⟩ := mem_map.mp hmem
  by_cases hpo : p s o' = true
  · rw [if_pos hpo] at hget hpaid ⊢
    obtain ⟨hid, hv⟩ := hp s o' hpo
    have hkey : (f s o').id = orderId := (hf s o').trans hid
    rw [show KeyedRow.key (f s o') = orderId from hkey] at hget
    obtain ⟨ev, hev', heo, hv'⟩ := hnew _ hget (by simp [paidAt, hpaid, hv])
    exact ⟨ev, hev', heo.trans hkey.symm, hv'.trans (congrArg some hv.symm)⟩
  · rw [if_neg hpo] at hpaid ⊢
    obtain ⟨ev, hev', heo, hv'⟩ := hi o' ho' hpaid
    exact ⟨ev, hev ev (by rw [updateOrders_events h]; exact hev'), heo, hv'⟩

theorem PaidHaveEvent.swap_hit (ho : t.orders.get? orderId = some o) (hpaid : paidAt version o = true)
    {ev : ShopOrderEvent} {te : Table ShopOrderEvent} (hte : te.rows = t.events.rows ++ [ev])
    (hev : ev.orderId = orderId ∧ ev.orderVersion = some version) :
    ∃ o', s.orders.get? orderId = some o' ∧ p s o' = true := by
  have hget := get?_map (updateOrders_rows hf h).2 (fun r => by split <;> simp [KeyedRow.key, hf]) orderId
  cases hs : s.orders.get? orderId with
  | none =>
    rw [hs, ho] at hget
    cases hget
  | some o' =>
    refine ⟨o', rfl, ?_⟩
    by_contra hmiss
    rw [hs, ho, Option.map_some, if_neg hmiss, Option.some.injEq] at hget
    subst hget
    simp only [paidAt, Bool.and_eq_true, beq_iff_eq] at hpaid
    obtain ⟨ev', hev', heo', hv'⟩ := hi o (get?_mem hs) hpaid.1
    have hclash : Row.clash ev' ev = false :=
      distinct_append hte (by rw [updateOrders_events h]; exact hev')
    have hid : o.id = orderId := get?_key hs
    simp [Row.clash, heo', hev.1, hid, hv', hev.2, hpaid.2] at hclash

end

end Swap

theorem insertEventOf_ok {q : ShopOrder → Bool}
    (h : insert Db.eventsT .abort (fun s => s.fromOrder orderId q g) c s = .ok (n, t)) :
    t.orders = s.orders ∧ (∀ ev ∈ s.events.rows, ev ∈ t.events.rows) ∧
      ∀ o, s.orders.get? orderId = some o → q o = true → t.events.rows = s.events.rows ++ [g o] := by
  obtain ⟨-, te, hte, rfl⟩ := insert_abort_ok h
  refine ⟨rfl, fun ev hev => ?_, fun o ho hq => ?_⟩
  · show ev ∈ te.rows
    rw [hte]
    exact mem_append_left _ hev
  · rw [fromOrder_some ho hq] at hte
    exact hte

/-! ## Batches -/

section Batches

variable {τ : Type} {S : Spec Db Site τ} {A : ShopOrderStatus → Prop} {t u : Db} {ns : List Nat}

theorem PaidHaveEvent.paying {rest : List (Stmt Db)} {version : Nat} (hi : PaidHaveEvent t)
    (hb : batch (updateOrders p f :: insert Db.eventsT .abort
      (fun s => s.fromOrder orderId (paidAt version) g) :: rest) c t = .ok (ns, u))
    (hf : ∀ s o, (f s o).id = o.id) (hp : ∀ s o, p s o = true → o.id = orderId ∧ (f s o).version = version)
    (hg : ∀ o, (g o).orderId = o.id ∧ (g o).orderVersion = some version)
    (hrest : ∀ st ∈ rest, Within NonePaid st) : PaidHaveEvent u := by
  obtain ⟨n1, t1, ms1, h1, hb, -⟩ := batch_cons_ok hb
  obtain ⟨n2, t2, ms2, h2, hb, -⟩ := batch_cons_ok hb
  obtain ⟨ho, hev, hnew⟩ := insertEventOf_ok h2
  refine PaidHaveEvent.step ?_ (batch_nonePaid hrest hb)
  refine hi.swap h1 hf hp ho hev fun o hget hpaid => ⟨g o, ?_, ?_⟩
  · rw [hnew o hget hpaid]
    exact mem_append_right _ (mem_singleton_self _)
  · exact ⟨(hg o).1.trans (get?_key hget), (hg o).2⟩

theorem orderCas_id {version : Id} {st : ShopOrderStatus} (h : orderCas orderId st version o = true) :
    o.id = orderId := by
  simp only [orderCas, Bool.and_eq_true, beq_iff_eq] at h
  exact h.1

section Payment

variable {channelId attemptId : Id} {event : PaymentEvent} {order : ShopOrder} {coupon : Option Id}
  {fulfillment : List (Stmt Db)} {now : Time} {t1 t2 t3 t4 : Db}

section

variable (h : OrderPaymentSteps channelId attemptId event order coupon fulfillment now t t1 t2 t3 t4 u) (hi : PaidHaveEvent t)
include h hi

theorem OrderPaymentSteps.hit :
    ∃ o, t.orders.get? order.id = some o ∧ orderCas order.id order.status order.version o = true := by
  have hkeep : (t2.orders, t2.events) = (t.orders, t.events) :=
    h.before (g := fun s => (s.orders, s.events)) (fun _ _ => rfl) fun _ _ => rfl
  simp only [Prod.mk.injEq] at hkeep
  have hi2 : PaidHaveEvent t2 := by
    unfold PaidHaveEvent
    rw [hkeep.1, hkeep.2]
    exact hi
  obtain ⟨c, n, hswap⟩ := h.swap
  obtain ⟨o, te, ho, hpaid, hte, -⟩ := h.event
  rw [← hkeep.1]
  exact hi2.swap_hit hswap (fun _ _ => rfl) ho hpaid hte ⟨get?_key ho, rfl⟩

theorem OrderPaymentSteps.paidHaveEvent {e : PaymentEnv} {τ : Type} {S : Spec Db Site τ}
    (hful : Fulfills S order.id e fulfillment t) : PaidHaveEvent u := by
  have hkeep : (t2.orders, t2.events) = (t.orders, t.events) :=
    h.before (g := fun s => (s.orders, s.events)) (fun _ _ => rfl) fun _ _ => rfl
  simp only [Prod.mk.injEq] at hkeep
  have hi2 : PaidHaveEvent t2 := by
    unfold PaidHaveEvent
    rw [hkeep.1, hkeep.2]
    exact hi
  obtain ⟨c, n, hswap⟩ := h.swap
  obtain ⟨o, te, ho, hpaid, hte, rfl⟩ := h.event
  obtain ⟨c4, ns4, hrest⟩ := h.rest
  refine PaidHaveEvent.step ?_
    (batch_nonePaid (fun st hst => (afterPaymentEvent_stmts hful st hst : QuietStmt True True True st).nonePaid) hrest)
  have hnew : ∃ ev ∈ te.rows, ev.orderId = order.id ∧ ev.orderVersion = some (order.version + 1) := by
    rw [hte]
    exact ⟨_, mem_append_right _ (mem_singleton_self _), get?_key ho, rfl⟩
  refine hi2.swap hswap (fun _ _ => rfl) (fun _ _ hp => ⟨orderCas_id hp, rfl⟩) rfl
    (fun ev hev => ?_) fun _ _ _ => hnew
  show ev ∈ te.rows
  rw [hte]
  exact mem_append_left _ hev

end

end Payment

theorem ShopBatch.paidHaveEvent {x : Site} (h : ShopBatch S A x sts t) (hi : PaidHaveEvent t)
    (hb : batch sts 0 t = .ok (ns, u)) : PaidHaveEvent u := by
  by_cases hx : x.isSide
  · exact hi.step (batch_nonePaid (fun st hst =>
      ((h.side hx st hst).quiet : QuietStmt True True x.isMoney st).nonePaid) hb)
  cases h with
  | orderPayment channelId event context order coupon fulfillment e _ _ _ hful =>
    obtain ⟨t1, t2, t3, t4, hsteps⟩ := orderPaymentBatch_ok hb
    exact hsteps.paidHaveEvent hi hful
  | freeOrder order fulfillment e _ hful =>
    refine hi.paying hb (fun _ _ => rfl) (fun s o hp => ?_) (fun o => ⟨rfl, rfl⟩) fun st hst => ?_
    · rw [Bool.and_eq_true] at hp
      exact ⟨orderCas_id hp.1, rfl⟩
    · exact (settleStatements_stmts hful st hst : QuietStmt True True True st).nonePaid
  | walletOrder w user fulfillment e _ _ hful =>
    obtain ⟨n1, t1, ms1, h1, hb, -⟩ := batch_cons_ok hb
    obtain ⟨n2, t2, ms2, h2, hb, -⟩ := batch_cons_ok hb
    have hi2 : PaidHaveEvent t2 := by
      refine (hi.step (keeps_nonePaid (update_off rfl) _ _ _ _ h1)).step ?_
      exact onChanges_within (fun _ => keeps_nonePaid (insert_off rfl)) _ _ _ _ h2
    refine hi2.paying hb (fun _ _ => rfl) (fun s o hp => ?_) (fun o => ⟨rfl, rfl⟩) fun st hst => ?_
    · rw [Bool.and_eq_true] at hp
      exact ⟨orderCas_id hp.1, rfl⟩
    · exact (settleStatements_stmts hful st hst : QuietStmt True True True st).nonePaid
  | expire orderId version now =>
    refine hi.step (batch_nonePaid (fun st hst => ?_) hb)
    rcases mem_cons.mp hst with rfl | hst
    · exact updateOrders_nonePaid (fun _ _ => rfl) fun _ _ _ => by simp [setStatus]
    · exact (expireBatch_stmts orderId version now st hst : QuietStmt True True True st).nonePaid
  | transition order toStatus now _ _ _ =>
    by_cases hto : toStatus = .paid
    · subst hto
      refine hi.paying hb (fun _ _ => rfl) (fun s o hp => ⟨orderCas_id hp, rfl⟩) (fun o => ⟨rfl, rfl⟩)
        fun st hst => ?_
      simp only [mem_cons, not_mem_nil, or_false] at hst
      rcases hst with rfl | rfl
      · exact keeps_nonePaid (insert_off rfl)
      · exact keeps_nonePaid (update_off rfl)
    · refine hi.step (batch_nonePaid (fun st hst => ?_) hb)
      simp only [transitionBatch, if_neg hto, mem_cons, not_mem_nil, or_false] at hst
      rcases hst with rfl | rfl | rfl | rfl
      · exact updateOrders_nonePaid (fun _ _ => rfl) fun _ _ _ => hto
      · exact insertEvents_nonePaid
      · exact keeps_nonePaid (insert_off rfl)
      · exact keeps_nonePaid (update_off rfl)
  | cancelUnstarted orderId now =>
    refine hi.step (batch_nonePaid (fun st hst => ?_) hb)
    rw [mem_singleton.mp hst]
    exact updateOrders_nonePaid (fun _ _ => rfl) fun _ _ _ => by simp [advanceOrder]
  | checkout c customer capacity coupon _ _ _ =>
    exact hi.step (batch_nonePaid (fun st hst =>
      (checkout_stmts c capacity coupon st hst : QuietStmt True True True st).nonePaid) hb)
  | _ => exact absurd trivial hx

end Batches

end Gmshop
