import GmshopEdge.Refunds.Steps

/-!
# The steps of the refund requests

The three batches that create a refund row (`requestShopRefund`, `refundAllocatedBalance` and
`requestWalletShopRefund`) advance the order by a compare-and-swap and add one refund of it.
`charge_admits` is what they share when the swap hits, `still_admits` when it misses.
-/

namespace Gmshop

open List Sql Stmt Table

/-! ## Rewrites that count for nothing -/

/-- A rewrite of a refund row that leaves what the sums and the claims read. -/
structure Still (f : Refund → Refund) : Prop where
  key : ∀ r, (f r).id = r.id
  orderId : ∀ r, (f r).orderId = r.orderId
  amount : ∀ r, (f r).amountMinor = r.amountMinor
  status : ∀ r, (f r).status = r.status
  attempt : ∀ r, (f r).attemptCount = r.attemptCount

theorem Still.refl : Still id := ⟨fun _ => rfl, fun _ => rfl, fun _ => rfl, fun _ => rfl, fun _ => rfl⟩

variable {f : Refund → Refund} {s s' : Db} {ns : List Nat} {x : Refund} {now : Time} {i id : Id}
  {st : ShopOrderStatus} {rest revoke : List (Stmt Db)} {input : RefundRequest}

theorem Still.comp {g : Refund → Refund} (hf : Still f) (hg : Still g) : Still (f ∘ g) where
  key r := (hf.key _).trans (hg.key r)
  orderId r := (hf.orderId _).trans (hg.orderId r)
  amount r := (hf.amount _).trans (hg.amount r)
  status r := (hf.status _).trans (hg.status r)
  attempt r := (hf.attempt _).trans (hg.attempt r)

theorem Still.liveWeight (hf : Still f) (i : Id) (r : Refund) : liveWeight i (f r) = liveWeight i r := by
  simp [Gmshop.liveWeight, hf.orderId, hf.amount, hf.status]

/-- `RefundQuiet`, up to such a rewrite. -/
structure RefundStill (s s' : Db) : Prop where
  orders : s'.orders = s.orders
  refunds : ∃ f, Still f ∧ s'.refunds.rows = s.refunds.rows.map f
  attempts : s'.attempts = s.attempts
  channels : s'.channels = s.channels
  events : ∀ ev ∈ s.events.rows, ev ∈ s'.events.rows

theorem RefundQuiet.still (h : RefundQuiet s s') : RefundStill s s' :=
  ⟨h.orders, ⟨id, Still.refl, by rw [h.refunds, map_id]⟩, h.attempts, h.channels, h.events⟩

theorem RefundStill.trans {a b c : Db} (h : RefundStill a b) (h' : RefundStill b c) : RefundStill a c := by
  obtain ⟨f, hf, hrows⟩ := h.refunds
  obtain ⟨f', hf', hrows'⟩ := h'.refunds
  exact ⟨h'.orders.trans h.orders, ⟨f' ∘ f, hf'.comp hf, by rw [hrows', hrows, map_map]⟩,
    h'.attempts.trans h.attempts, h'.channels.trans h.channels,
    fun ev he => h'.events ev (h.events ev he)⟩

theorem batch_still {sts : List (Stmt Db)} (h : ∀ st ∈ sts, Within RefundStill st) {c : Nat}
    (hb : batch sts c s = .ok (ns, s')) : RefundStill s s' :=
  batch_within (fun s => (RefundQuiet.refl s).still) (fun _ _ _ => RefundStill.trans) h hb

theorem Within.still {st : Stmt Db} (h : Within RefundQuiet st) : Within RefundStill st :=
  fun c s n s' hs => (h c s n s' hs).still

theorem updateSplit_still {p : Db → Refund → Bool} (hf : Still f) :
    Within RefundStill (update Db.refundsT p (fun _ => f)) := by
  intro c s n s' h
  obtain ⟨-, t, ht, rfl⟩ := update_ok h
  refine ⟨rfl, ⟨fun r => if p s r then f r else r, ?_, ht⟩, rfl, rfl, fun _ h => h⟩
  constructor <;> intro r <;> by_cases hp : p s r = true
  all_goals simp [hp, hf.key, hf.orderId, hf.amount, hf.status, hf.attempt]

section Requests

variable {strict : Prop} {t u : Db}

theorem still_admits (hinv : BudgetInv strict t) (h : RefundStill t u) : (refundSpec strict).Admits ∅ ∅ t u := by
  obtain ⟨f, hf, hrows⟩ := h.refunds
  have eo (i : Id) : OrderEffect i id t u := OrderEffect.refl i h.orders
  have er : RefundEffect 0 f [] t u :=
    { rows := by rw [hrows, append_nil]
      key := hf.key
      step := fun r _ => ⟨hf.orderId r, hf.amount r, (hf.attempt r).ge⟩
      other := fun r _ _ => hf.status r
      final := fun r _ hs => (hf.status r).trans hs
      new := fun r hr => by cases hr }
  have hlive := er.live_le (fun r _ hl => by rw [hf.status]; exact hl)
  have hsucc := er.succeeded_le (fun r _ hs => by rw [hf.status] at hs; exact hs)
  refine admits_effect (eo 0) er h.attempts h.channels h.events hinv ?_ ?_ ?_ ?_ ?_ ?_ ?_ (Set.empty_subset _)
  · exact fun o hi hp => (hlive 0).trans (hinv.cap 0 o hi hp)
  · exact fun _ _ _ _ _ => ⟨hlive 0, hsucc 0⟩
  · exact fun _ o _ _ hv => absurd hv (lt_irrefl _)
  · exact fun o _ hfull => hfull.1
  · intro r _ hs
    rw [hf.status] at hs
    exact hs
  · intro r hr
    cases hr
  · intro r _ _ _ hs
    rw [hf.status]
    exact hs

theorem charge_admits {o : ShopOrder} (hinv : BudgetInv strict t) (hi : t.orders.get? i = some o)
    (hst : refundableStatus o.status = true) (horows : u.orders.rows = t.orders.rows.map (fun y =>
      if orderCas i o.status o.version y then setStatus st (o.version + 1) now y else y)) (hf : Still f)
    (hrows : u.refunds.rows = t.refunds.rows.map f ++ [x]) (hx : x.orderId = i) (ha : u.attempts = t.attempts)
    (hc : u.channels = t.channels) (he : ∀ ev ∈ t.events.rows, ev ∈ u.events.rows)
    (hcap : (strict ∨ PaidByProvider t i) → liveMinor t i + x.amountMinor ≤ o.paidMinor)
    (hprov : x.status ≠ .succeeded → PaidByProvider t i) (hrec : strict → ¬PaidByProvider t i →
      ∃ ev ∈ u.events.rows, ev.orderId = i ∧ ev.orderVersion = some (o.version + 1)) :
    (refundSpec strict).Admits ∅ ∅ t u := by
  let h : ShopOrder → ShopOrder := fun y =>
    if orderCas i o.status o.version y then setStatus st (o.version + 1) now y else y
  have hcas : ∀ y : ShopOrder, orderCas i o.status o.version y = true ↔
      y.id = i ∧ y.status = o.status ∧ y.version = o.version := by simp [orderCas]
  have hid : o.id = i := get?_key hi
  have hho : h o = setStatus st (o.version + 1) now o := if_pos ((hcas o).mpr ⟨hid, rfl, rfl⟩)
  have eo : OrderEffect i h t u := by
    refine ⟨horows, fun y _ => ?_, fun y hy => ?_, fun y => ?_⟩
    · by_cases hq : orderCas i o.status o.version y = true
      · have hv := ((hcas y).mp hq).2.2
        simp only [h, hq, if_true]
        exact ⟨rfl, rfl, by rw [hv]; exact Nat.le_succ _, fun hv' => absurd (hv'.trans hv) (Nat.succ_ne_self _)⟩
      · simp only [h, hq, if_false, Bool.false_eq_true]
        exact OrderStep.refl y
    · exact if_neg fun hq => hy ((hcas y).mp hq).1
    · by_cases hq : orderCas i o.status o.version y = true
      · simp only [h, hq, if_true]
        rfl
      · simp only [h, hq, if_false, Bool.false_eq_true]
  have er : RefundEffect i f [x] t u :=
    { rows := hrows
      key := hf.key
      step := fun r _ => ⟨hf.orderId r, hf.amount r, (hf.attempt r).ge⟩
      other := fun r _ _ => hf.status r
      final := fun r _ hs => (hf.status r).trans hs
      new := fun r hr => by rw [mem_singleton.mp hr, hx] }
  have hlive : liveMinor u i ≤ liveMinor t i + x.amountMinor := by
    unfold liveMinor
    rw [er.sum, show liveWeight i ∘ f = liveWeight i from funext fun r => hf.liveWeight i r]
    refine Nat.add_le_add_left ?_ _
    rw [map_singleton, sum_singleton]
    unfold liveWeight
    split
    · exact le_rfl
    · exact Nat.zero_le _
  refine admits_effect eo er ha hc he hinv ?_ ?_ ?_ ?_ ?_ ?_ ?_ (Set.empty_subset _)
  · intro y hy hp
    rw [hi, Option.some.injEq] at hy
    exact hlive.trans (hy ▸ hcap hp)
  · intro y hy hv _ _
    rw [hi, Option.some.injEq] at hy
    rw [← hy, hho] at hv
    exact absurd hv (Nat.succ_ne_self _)
  · intro hs y hy hnp _
    rw [hi, Option.some.injEq] at hy
    exact hy ▸ hrec hs hnp
  · intro y hy hfull
    rw [hi, Option.some.injEq] at hy
    -- a refundable order is not refunded yet
    rw [← hy] at hfull
    rcases hfull.1 with hs | hs <;> rw [hs] at hst <;> cases hst
  · intro r _ hs
    rw [hf.status] at hs
    exact hs
  · intro r hr hs
    rw [mem_singleton.mp hr] at hs
    exact hprov hs
  · intro r _ _ _ hs
    rw [hf.status]
    exact hs

/-! ## The swap and the refund row that hangs on it -/

theorem cas_get? (s : Db) (i : Id) (st : ShopOrderStatus) (v : Nat) :
    (∃ o, s.orders.get? i = some o ∧ o.status = st ∧ o.version = v ∧ s.orders.count (orderCas i st v) = 1) ∨
    ((∀ o ∈ s.orders.rows, orderCas i st v o = false) ∧ s.orders.count (orderCas i st v) = 0) := by
  have hcount : s.orders.count (orderCas i st v) =
      ((s.orders.get? i).filter fun o => o.status == st && o.version == v).toList.length :=
    count_key s.orders i _
  cases hf : (s.orders.get? i).filter fun o => o.status == st && o.version == v with
  | none =>
    rw [hf] at hcount
    exact Or.inr ⟨count_eq_zero.mp hcount, hcount⟩
  | some o =>
    rw [hf] at hcount
    obtain ⟨hi, hp⟩ := Option.filter_eq_some_iff.mp hf
    simp only [Bool.and_eq_true, beq_iff_eq] at hp
    exact Or.inl ⟨o, hi, hp.1, hp.2, hcount⟩

theorem casInsert_effect {a : ShopOrderStatus} {v : Nat} {q : ShopOrder → Bool} {row : ShopOrder → Refund}
    (hq : ∀ o : ShopOrder, o.version = v → q (setStatus a (v + 1) now o) = true)
    (hrest : ∀ st ∈ rest, Within RefundStill st) (hb : batch (updateOrders (fun _ o => orderCas i st v o)
        (fun _ o => setStatus a (v + 1) now o) ::
      onChanges (fun changes => insertRefund fun s =>
        if changes = 1 then s.fromOrder i q row else []) :: rest) 0 t = .ok (ns, u)) :
    ((∃ o, t.orders.get? i = some o ∧ o.status = st ∧ o.version = v ∧ u.orders.rows = t.orders.rows.map (fun y =>
          if orderCas i st v y then setStatus a (v + 1) now y else y) ∧
        ∃ f, Still f ∧ u.refunds.rows = t.refunds.rows.map f ++ [f (row (setStatus a (v + 1) now o))]) ∨
      RefundStill t u) ∧
    u.attempts = t.attempts ∧ u.channels = t.channels ∧ (∀ ev ∈ t.events.rows, ev ∈ u.events.rows) := by
  obtain ⟨n1, s1, ns1, h1, hb1, -⟩ := batch_cons_ok hb
  obtain ⟨n2, s2, ns2, h2, hb2, -⟩ := batch_cons_ok hb1
  obtain ⟨hn, horows, hr1, he1, ha1, hc1⟩ := updateOrders_effect h1 (fun _ _ => rfl)
  obtain ⟨-, hrrows, ho2, he2, ha2, hc2⟩ := insertRefund_effect h2
  have hs := batch_still hrest hb2
  obtain ⟨f, hf, hfrows⟩ := hs.refunds
  have ha := hs.attempts.trans (ha2.trans ha1)
  have hc := hs.channels.trans (hc2.trans hc1)
  have he : ∀ ev ∈ t.events.rows, ev ∈ u.events.rows :=
    fun ev hev => hs.events ev (by rw [he2, he1]; exact hev)
  refine ⟨?_, ha, hc, he⟩
  rcases cas_get? t i st v with ⟨o, hi, host, hov, hcount⟩ | ⟨hmiss, hcount⟩
  · refine Or.inl ⟨o, hi, host, hov, ?_, f, hf, ?_⟩
    · rw [hs.orders, ho2]
      exact horows
    · have hcas : orderCas i st v o = true := by
        have hid : o.id = i := get?_key hi
        simp [orderCas, hid, host, hov]
      have hi1 : s1.orders.get? i = some (setStatus a (v + 1) now o) := by
        rw [get?_map horows ?_ i, hi, Option.map_some, if_pos hcas]
        intro y
        by_cases hy : orderCas i st v y = true
        · rw [if_pos hy]
          rfl
        · rw [if_neg hy]
      rw [if_pos (hn.trans hcount), fromOrder_some hi1 (hq o hov)] at hrrows
      rw [hfrows, hrrows, hr1, map_append, map_singleton]
  · refine Or.inr ⟨?_, ⟨f, hf, ?_⟩, ha, hc, he⟩
    · rw [hs.orders, ho2]
      refine ext_rows (horows.trans ?_)
      rw [map_congr_left (g := id) fun y hy => by rw [hmiss y hy]; rfl, map_id]
    · have h1' : n1 ≠ 1 := by
        rw [hn]
        exact hcount ▸ Nat.zero_ne_one
      rw [if_neg h1', append_nil] at hrrows
      rw [hfrows, hrrows, hr1]

theorem request_admits {o : RefundableOrder} {pa : Int} {split : Option PromotionSplit} {manual : Bool}
    (hinv : BudgetInv strict t) (hpaid : PaidByProvider t o.order.id)
    (hst : refundableStatus o.order.status = true)
    (hfit : ∀ x, t.orders.get? o.order.id = some x → x.status = o.order.status →
      x.version = o.order.version → liveMinor t o.order.id + input.amountMinor ≤ x.paidMinor)
    (hb : batch (requestBatch input o pa split manual id now) 0 t = .ok (ns, u)) :
    (refundSpec strict).Admits ∅ ∅ t u := by
  obtain ⟨heff, ha, hc, he⟩ := casInsert_effect (a := .refunding)
    (q := fun x => x.status == .refunding && x.version == o.order.version + 1)
    (fun x _ => by simp [setStatus]) (fun st hst => by
      rcases mem_append.mp hst with hst | hst
      · rcases mem_append.mp hst with hst | hst
        · rw [mem_singleton.mp hst]
          exact Within.still (insertEvents_quiet _ _)
        · split at hst
          · cases hst
          · rw [mem_singleton.mp hst]
            exact Within.still (keeps_quiet (refundOutboxStatement_keeps (fun _ _ => rfl) _ _ _ _ _))
      · split at hst
        · cases hst
        · rw [mem_singleton.mp hst]
          exact updateSplit_still ⟨fun _ => rfl, fun _ => rfl, fun _ => rfl, fun _ => rfl, fun _ => rfl⟩) hb
  rcases heff with ⟨x, hi, hxs, hxv, horows, f, hf, hrows⟩ | hstill
  · rw [← hxs] at hst
    rw [← hxs, ← hxv] at horows
    refine charge_admits hinv hi hst horows hf hrows ?_ ha hc he ?_ (fun _ => hpaid) (fun _ hnp => absurd hpaid hnp)
    · rw [hf.orderId]
      exact get?_key hi
    · intro _
      rw [hf.amount]
      exact hfit x hi hxs hxv
  · exact still_admits hinv hstill

theorem batch_event {g : Db → List ShopOrderEvent} (xs : List (Stmt Db)) (hrest : ∀ st ∈ rest, Within RefundQuiet st)
    (hb : batch (xs ++ insert Db.eventsT .abort g :: rest) 0 t = .ok (ns, u)) :
    ∃ ns1 s s', batch xs 0 t = .ok (ns1, s) ∧ s'.events.rows = s.events.rows ++ g s ∧
      RefundQuiet s s' ∧ RefundQuiet s' u := by
  obtain ⟨ns1, s, ns2, h1, h2, -⟩ := batch_append_ok hb
  obtain ⟨n, s', ns3, h3, h4, -⟩ := batch_cons_ok h2
  exact ⟨ns1, s, s', h1, insertEvents_rows h3, insertEvents_quiet _ _ _ _ _ _ h3, batch_quiet hrest h4⟩

theorem fullRefund_quiet (orderId : Id) (hrevoke : ∀ st ∈ revoke, Within RefundQuiet st) (full : Prop)
    [Decidable full] :
    ∀ st ∈ (if full then revoke ++ cancelOpenFulfillmentStatements orderId else []), Within RefundQuiet st := by
  intro st hmem
  by_cases hf : full
  · rw [if_pos hf] at hmem
    rcases mem_append.mp hmem with hmem | hmem
    · exact hrevoke st hmem
    · exact keeps_quiet (cancelOpenFulfillmentStatements_keep orderId (fun _ _ => rfl)
        (fun _ _ => rfl) (fun _ _ => rfl) st hmem)
  · rw [if_neg hf] at hmem
    cases hmem

theorem allocated_admits {split : PromotionSplit} (hinv : BudgetInv strict t)
    (hst : refundableStatus split.order.status = true) (hrevoke : ∀ st ∈ revoke, Within RefundQuiet st)
    (hfit : ∀ x, t.orders.get? split.order.id = some x → x.status = split.order.status →
      x.version = split.order.version → (strict ∨ PaidByProvider t split.order.id) →
      liveMinor t split.order.id + input.amountMinor ≤ x.paidMinor)
    (hb : batch (allocatedBatch input split id now revoke) 0 t = .ok (ns, u)) :
    (refundSpec strict).Admits ∅ ∅ t u := by
  have hclose := fullRefund_quiet split.order.id hrevoke ((if split.after = split.order.paidMinor
    then ShopOrderStatus.refunded else split.order.status) = .refunded)
  obtain ⟨ns1, s, s', -, hev, hq, hq'⟩ := batch_event [_, _] hclose hb
  obtain ⟨heff, ha, hc, he⟩ := casInsert_effect (q := fun x => x.version == split.order.version + 1)
    (fun x _ => by simp [setStatus]) (fun st hst => by
      rcases mem_cons.mp hst with rfl | hst
      · exact Within.still (insertEvents_quiet _ _)
      · exact Within.still (hclose st hst)) hb
  rcases heff with ⟨x, hi, hxs, hxv, horows, f, hf, hrows⟩ | hstill
  · rw [← hxs] at hst
    rw [← hxs, ← hxv] at horows
    refine charge_admits hinv hi hst horows hf hrows ?_ ha hc he ?_ ?_ ?_
    · rw [hf.orderId]
      exact get?_key hi
    · intro hp
      rw [hf.amount]
      exact hfit x hi hxs hxv hp
    · intro hns
      rw [hf.status] at hns
      exact absurd rfl hns
    · -- the event of the new refund row carries the new version
      intro _ _
      obtain ⟨y, hy, hyid, hyo⟩ : ∃ y ∈ u.refunds.rows, y.id = id ∧ y.orderId = split.order.id :=
        ⟨_, by rw [hrows]; exact mem_append_right _ mem_cons_self, hf.key _,
          (hf.orderId _).trans (get?_key hi)⟩
      rw [hq'.refunds, hq.refunds] at hy
      have hfound := mem_filter (p := fun r : Refund => r.id == id) |>.mpr ⟨hy, beq_iff_eq.mpr hyid⟩
      exact ⟨_, hq'.events _ (hev ▸ mem_append_right _ (mem_map_of_mem hfound)), hyo,
        by rw [hxv]⟩
  · exact still_admits hinv hstill

/-! ## The wallet refund

Its refund row hangs on the order's version alone, so a call that lost the race inserts it as well;
the unique index on (order, version) of the event table is what rolls such a batch back. -/

theorem stray_admits (hinv : BudgetInv strict t) (ho : u.orders = t.orders)
    (hrows : u.refunds.rows = t.refunds.rows ++ [x]) (hx : x.orderId = i) (hxs : x.status = .succeeded)
    (ha : u.attempts = t.attempts) (hc : u.channels = t.channels)
    (he : ∀ ev ∈ t.events.rows, ev ∈ u.events.rows) (hns : ¬strict) (hnp : ¬PaidByProvider t i) :
    (refundSpec strict).Admits ∅ ∅ t u := by
  have hno : ¬(strict ∨ PaidByProvider t i) := fun h => h.elim hns hnp
  have er : RefundEffect i id [x] t u :=
    { rows := by rw [hrows, map_id]
      key := fun _ => rfl
      step := fun r _ => RefundStep.refl r
      other := fun _ _ _ => rfl
      final := fun _ _ hs => hs
      new := fun r hr => by rw [mem_singleton.mp hr, hx] }
  refine admits_effect (OrderEffect.refl i ho) er ha hc he hinv ?_ ?_ ?_ ?_ ?_ ?_ ?_ (Set.empty_subset _)
  · exact fun _ _ hp => absurd hp hno
  · exact fun _ _ _ _ hp => absurd hp hno
  · exact fun hs => absurd hs hns
  · exact fun o _ hfull => hfull.1
  · exact fun _ _ hs => hs
  · intro r hr hs
    rw [mem_singleton.mp hr] at hs
    exact absurd hxs hs
  · exact fun _ _ _ _ hs => hs

theorem wallet_admits {order : ShopOrder} {user : User} {available reversal : Int} (hinv : BudgetInv strict t)
    (hst : refundableStatus order.status = true) (hrevoke : ∀ st ∈ revoke, Within RefundQuiet st)
    (hnp : ¬PaidByProvider t order.id)
    (hfit : strict → ∀ x, t.orders.get? order.id = some x → x.status = order.status →
      x.version = order.version → liveMinor t order.id + input.amountMinor ≤ x.paidMinor)
    (hlost : strict → ∀ x, t.orders.get? order.id = some x → x.version = order.version + 1 →
      ∃ ev ∈ t.events.rows, ev.orderId = order.id ∧ ev.orderVersion = some (order.version + 1))
    (hb : batch (walletRefundBatch input order user available reversal id now revoke) 0 t =
      .ok (ns, u)) : (refundSpec strict).Admits ∅ ∅ t u := by
  have hclose := fullRefund_quiet order.id hrevoke ((if (input.amountMinor : Int) = available
    then ShopOrderStatus.refunded else order.status) = .refunded)
  obtain ⟨ns1, s4, s5, hb0, hev, hq4, hq5⟩ := batch_event [_, _, _, _] hclose hb
  obtain ⟨n1, s1, n2, s2, n3, s3, n4, s4', h1, h2, h3, h4, rfl⟩ := batch_four_ok hb0
  have hq2 : RefundQuiet t s2 :=
    (keeps_quiet (update_off rfl) _ _ _ _ h1).trans
      (keeps_quiet (insert_off rfl) _ _ _ _ h2)
  obtain ⟨-, horows, hr3, he3, ha3, hc3⟩ := updateOrders_effect h3 (fun _ _ => rfl)
  obtain ⟨-, hrrows, ho4, he4, ha4, hc4⟩ := insertRefund_effect h4
  have hq := hq4.trans hq5
  have ha := hq.attempts.trans (ha4.trans (ha3.trans hq2.attempts))
  have hc := hq.channels.trans (hc4.trans (hc3.trans hq2.channels))
  have he : ∀ ev ∈ t.events.rows, ev ∈ s4'.events.rows :=
    fun ev h => by rw [he4, he3]; exact hq2.events ev h
  have he' : ∀ ev ∈ t.events.rows, ev ∈ u.events.rows := fun ev h => hq.events ev (he ev h)
  have hcas : ∀ y : ShopOrder, orderCas order.id order.status order.version y = true ↔
      y.id = order.id ∧ y.status = order.status ∧ y.version = order.version := by simp [orderCas]
  rw [hq2.orders] at horows
  by_cases hhit : (s2.walletEntries.exist fun w => w.idempotencyKey == .walletRefund id) = true ∧
      ∃ x, t.orders.get? order.id = some x ∧ x.status = order.status ∧ x.version = order.version
  · -- the swap hit: the order is charged
    obtain ⟨hentry, x, hi, hxs, hxv⟩ := hhit
    have hid : x.id = order.id := get?_key hi
    simp only [hentry, Bool.and_true] at horows
    have hi3 := get?_map horows (fun y => by
      by_cases hy : orderCas order.id order.status order.version y = true
      · rw [if_pos hy]
        rfl
      · rw [if_neg hy]) order.id
    rw [hi, Option.map_some, if_pos ((hcas x).mpr ⟨hid, hxs, hxv⟩)] at hi3
    rw [fromOrder_some hi3 (by simp [setStatus]), hr3, hq2.refunds] at hrrows
    rw [fromOrder_some (by rw [ho4]; exact hi3) (by simp [setStatus])] at hev
    rw [← hxs] at hst
    rw [← hxs, ← hxv] at horows
    refine charge_admits (f := fun r => r) hinv hi hst (by rw [hq.orders, ho4]; exact horows)
      Still.refl (by rw [hq.refunds, hrrows, map_id']) hid ha hc he' ?_ ?_ ?_
    · rintro (hs | hp)
      · exact hfit hs x hi hxs hxv
      · exact absurd hp hnp
    · exact fun hs => absurd rfl hs
    · intro _ _
      refine ⟨_, hq5.events _ (hev ▸ mem_append_right _ mem_cons_self), hid, ?_⟩
      show some (order.version + 1) = _
      rw [hxv]
  · -- it missed: the orders stand
    have hmiss : ∀ y ∈ t.orders.rows, (orderCas order.id order.status order.version y &&
        s2.walletEntries.exist fun w => w.idempotencyKey == .walletRefund id) = false := by
      intro y hy
      by_contra hne
      simp only [Bool.not_eq_false, Bool.and_eq_true] at hne
      obtain ⟨hid, hrest⟩ := (hcas y).mp hne.1
      exact hhit ⟨hne.2, y, get?_eq_some_iff.mpr ⟨hy, hid⟩, hrest⟩
    have ho3 : s3.orders = t.orders := by
      refine ext_rows (horows.trans ?_)
      rw [map_congr_left (g := fun y => y) fun y hy => by
        rw [if_neg (Bool.eq_false_iff.mp (hmiss y hy))], map_id']
    have ho : u.orders = t.orders := hq.orders.trans (ho4.trans ho3)
    by_cases hnext : ∃ x, t.orders.get? order.id = some x ∧ x.version = order.version + 1
    · obtain ⟨x, hi, hxv⟩ := hnext
      have hid : x.id = order.id := get?_key hi
      have hi3 : s3.orders.get? order.id = some x := by rw [ho3]; exact hi
      have hq' : (fun o : ShopOrder => o.version == order.version + 1) x = true := by simp [hxv]
      rw [fromOrder_some hi3 hq', hr3, hq2.refunds] at hrrows
      rw [fromOrder_some (by rw [ho4]; exact hi3) hq'] at hev
      by_cases hs : strict
      · -- the event of that version is on record already
        obtain ⟨ev, hmem, heo, hver⟩ := hlost hs x hi hxv
        have hclash := distinct_append hev (he ev hmem)
        simp [Row.clash, heo, hid, hver, hxv] at hclash
      · exact stray_admits hinv ho (by rw [hq.refunds, hrrows]) hid rfl ha hc he' hs hnp
    · rw [fromOrder_none fun x hx => ?_, append_nil, hr3, hq2.refunds] at hrrows
      · exact still_admits hinv ⟨ho, ⟨_, Still.refl, by rw [hq.refunds, hrrows, map_id]⟩, ha,
          hc, he'⟩
      · rw [ho3] at hx
        by_contra hne
        exact hnext ⟨x, hx, by simpa using hne⟩

end Requests

end Gmshop
