import GmshopEdge.Refunds.Budget

/-!
# The steps of the refund batches

Each refund batch touches one order and rows of `refunds` that belong to it. `OrderEffect` and
`RefundEffect` say what a batch did to the two tables; `admits_effect` turns them, with the
arithmetic of the one order, into an admitted step of `refundSpec`. Then one lemma for each batch.
-/

namespace Gmshop

open List Sql Stmt

/-! ## What the statements write -/

/-- The refund tables and what decides `PaidByProvider`. -/
def refundCore (s : Db) := (s.orders, s.refunds, s.events, s.attempts, s.channels)

structure RefundQuiet (s s' : Db) : Prop where
  orders : s'.orders = s.orders
  refunds : s'.refunds = s.refunds
  attempts : s'.attempts = s.attempts
  channels : s'.channels = s.channels
  events : ∀ ev ∈ s.events.rows, ev ∈ s'.events.rows

theorem RefundQuiet.refl (s : Db) : RefundQuiet s s := ⟨rfl, rfl, rfl, rfl, fun _ h => h⟩

theorem RefundQuiet.trans {a b c : Db} (h : RefundQuiet a b) (h' : RefundQuiet b c) : RefundQuiet a c :=
  ⟨h'.orders.trans h.orders, h'.refunds.trans h.refunds, h'.attempts.trans h.attempts,
    h'.channels.trans h.channels, fun ev he => h'.events ev (h.events ev he)⟩

variable {c n : Nat} {s s' : Db} {ns : List Nat} {r refund : Refund} {j : Id} {p : Refund → Bool}
  {f : Refund → Refund} {now : Time} {orderStatus : ShopOrderStatus} {pid : Option ProviderRefundId}
  {close : List (Stmt Db)} {status : RefundStatus} {fc : Option RefundFailure}

theorem batch_quiet {sts : List (Stmt Db)} (h : ∀ st ∈ sts, Within RefundQuiet st)
    (hb : batch sts c s = .ok (ns, s')) : RefundQuiet s s' :=
  batch_within RefundQuiet.refl (fun _ _ _ => RefundQuiet.trans) h hb

theorem keeps_quiet {st : Stmt Db} (h : Keeps refundCore st) : Within RefundQuiet st := by
  intro c s n s' hs
  have hk := h c s n s' hs
  simp only [refundCore, Prod.mk.injEq] at hk
  obtain ⟨h1, h2, h3, h4, h5⟩ := hk
  exact ⟨h1, h2, h4, h5, by rw [h3]; exact fun _ h => h⟩

theorem insertEvents_quiet (c : OnConflict) (g : Db → List ShopOrderEvent) :
    Within RefundQuiet (insert Db.eventsT c g) := by
  intro k s n s' h
  obtain ⟨-, t, ht, rfl⟩ := insert_ok h
  refine ⟨rfl, rfl, rfl, rfl, fun ev he => ?_⟩
  show ev ∈ t.rows
  rw [ht]
  exact mem_append_left _ he

theorem updateRefunds_effect {p : Db → Refund → Bool} {f : Db → Refund → Refund}
    (h : updateRefunds p f c s = .ok (n, s')) (hf : ∀ s r, (f s r).id = r.id) :
    n = s.refunds.count (p s) ∧ s'.refunds.rows = s.refunds.rows.map (fun r => if p s r then f s r else r) ∧
      s'.orders = s.orders ∧ s'.events = s.events ∧ s'.attempts = s.attempts ∧
      s'.channels = s.channels := by
  obtain ⟨hn, hrows⟩ := updateRefunds_rows hf h
  have hk := Keeps.eq (updateRefunds_keeps (g := fun s => (s.orders, s.events, s.attempts, s.channels))
    (by constructor <;> exact fun _ _ => rfl) fun _ _ => rfl) h
  exact ⟨hn, hrows, by simpa using hk⟩

theorem insertRefund_effect {g : Db → List Refund} (h : insertRefund g c s = .ok (n, s')) :
    n = (g s).length ∧ s'.refunds.rows = s.refunds.rows ++ g s ∧
      s'.orders = s.orders ∧ s'.events = s.events ∧ s'.attempts = s.attempts ∧
      s'.channels = s.channels := by
  obtain ⟨hn, hrows⟩ := insertRefund_rows h
  have hk := Keeps.eq (insertRefund_keeps (g := fun s => (s.orders, s.events, s.attempts, s.channels))
    (by constructor <;> exact fun _ _ => rfl) fun _ _ => rfl) h
  exact ⟨hn, hrows, by simpa using hk⟩

theorem updateOrders_effect {p : Db → ShopOrder → Bool} {f : Db → ShopOrder → ShopOrder}
    (h : updateOrders p f c s = .ok (n, s')) (hf : ∀ s o, (f s o).id = o.id) :
    n = s.orders.count (p s) ∧ s'.orders.rows = s.orders.rows.map (fun o => if p s o then f s o else o) ∧
      s'.refunds = s.refunds ∧ s'.events = s.events ∧ s'.attempts = s.attempts ∧
      s'.channels = s.channels := by
  obtain ⟨hn, hrows⟩ := updateOrders_rows hf h
  have hk := Keeps.eq (updateOrders_keeps (g := fun s => (s.refunds, s.events, s.attempts, s.channels))
    (by constructor <;> exact fun _ _ => rfl) fun _ _ => rfl) h
  exact ⟨hn, hrows, by simpa using hk⟩

theorem insertEvents_rows {g : Db → List ShopOrderEvent} (h : insert Db.eventsT .abort g c s = .ok (n, s')) :
    s'.events.rows = s.events.rows ++ g s := by
  obtain ⟨-, t, ht, rfl⟩ := insert_abort_ok h
  exact ht

theorem refundOutboxStatement_keeps {γ : Type} {g : Db → γ}
    (hg : ∀ s t, g (Db.outboxT.set s t) = g s) (refundId : Id) (ty : OutboxType) (next : Time)
    (attempt : Nat) (guard : Option RefundOutboxGuard) :
    Keeps g (refundOutboxStatement refundId ty next attempt guard) :=
  insert_keeps hg

/-! ## Effects -/

/-- The order rows changed from `t` to `u` by `h`, which moves order `i` only. -/
structure OrderEffect (i : Id) (h : ShopOrder → ShopOrder) (t u : Db) : Prop where
  rows : u.orders.rows = t.orders.rows.map h
  step : ∀ o ∈ t.orders.rows, OrderStep o (h o)
  other : ∀ o, o.id ≠ i → h o = o
  key : ∀ o, (h o).id = o.id

/-- The refund rows changed from `t` to `u` by `g`, and `xs` were added, all of order `i`. -/
structure RefundEffect (i : Id) (g : Refund → Refund) (xs : List Refund) (t u : Db) : Prop where
  rows : u.refunds.rows = t.refunds.rows.map g ++ xs
  key : ∀ r, (g r).id = r.id
  step : ∀ r ∈ t.refunds.rows, RefundStep r (g r)
  other : ∀ r ∈ t.refunds.rows, r.orderId ≠ i → (g r).status = r.status
  final : ∀ r ∈ t.refunds.rows, r.status = .succeeded → (g r).status = .succeeded
  new : ∀ r ∈ xs, r.orderId = i

section Effects

variable {i : Id} {t u : Db} {h : ShopOrder → ShopOrder} {g : Refund → Refund} {xs : List Refund}

theorem OrderEffect.refl (i : Id) (ho : u.orders = t.orders) : OrderEffect i id t u where
  rows := by rw [ho, map_id]
  step o _ := OrderStep.refl o
  other _ _ := rfl
  key _ := rfl

theorem OrderEffect.get? (e : OrderEffect i h t u) (k : Id) : u.orders.get? k = (t.orders.get? k).map h :=
  Table.get?_map e.rows e.key k

section

variable (e : RefundEffect i g xs t u)
include e

theorem RefundEffect.get? {k : Id} (hr : t.refunds.get? k = some r) : u.refunds.get? k = some (g r) := by
  unfold Table.get? at hr ⊢
  rw [e.rows, find?_append, find?_map]
  have hp : ((fun r : Refund => KeyedRow.key r == k) ∘ g) = fun r => KeyedRow.key r == k := by
    funext x
    show ((g x).id == k) = (x.id == k)
    rw [e.key]
  rw [hp, hr]
  rfl

theorem RefundEffect.sum (w : Refund → Nat) : u.refunds.sum w = t.refunds.sum (w ∘ g) + (xs.map w).sum := by
  unfold Table.sum
  rw [e.rows, map_append, sum_append, map_map]

theorem RefundEffect.sum_other (hj : j ≠ i) {w : Refund → Nat} (hw : ∀ r, r.orderId ≠ j → w r = 0)
    (hw' : ∀ r r', RefundStep r r' → r'.status = r.status → w r' = w r) : u.refunds.sum w = t.refunds.sum w := by
  have hxs : (xs.map w).sum = 0 := by
    rw [List.sum_eq_zero]
    intro n hn
    obtain ⟨r, hr, rfl⟩ := List.mem_map.mp hn
    exact hw r (by rw [e.new r hr]; exact Ne.symm hj)
  have hg : t.refunds.sum (w ∘ g) = t.refunds.sum w := by
    refine congrArg List.sum (List.map_congr_left fun r hr => ?_)
    by_cases hi : r.orderId = i
    · have hji : r.orderId ≠ j := by rw [hi]; exact Ne.symm hj
      rw [Function.comp_apply, hw r hji, hw (g r) (by rw [(e.step r hr).orderId]; exact hji)]
    · exact hw' r (g r) (e.step r hr) (e.other r hr hi)
  rw [e.sum, hxs, hg, Nat.add_zero]

theorem RefundEffect.live_other (hj : j ≠ i) : liveMinor u j = liveMinor t j :=
  e.sum_other hj (fun r hr => by simp [liveWeight, hr])
    fun r r' hs hst => by simp [liveWeight, hs.orderId, hs.amount, hst]

theorem RefundEffect.succeeded_other (hj : j ≠ i) : succeededMinor u j = succeededMinor t j :=
  e.sum_other hj (fun r hr => by simp [succeededWeight, hr])
    fun r r' hs hst => by simp [succeededWeight, hs.orderId, hs.amount, hst]

end

theorem RefundEffect.live_le (e : RefundEffect i g [] t u)
    (hw : ∀ r ∈ t.refunds.rows, r.status.live = false → (g r).status.live = false) (j : Id) :
    liveMinor u j ≤ liveMinor t j := by
  refine Table.sum_le_of_map (g := g) (by rw [e.rows, append_nil]) fun r hr => ?_
  have hs := e.step r hr
  unfold liveWeight
  rw [hs.orderId, hs.amount]
  by_cases hj : r.orderId = j
  · cases hl : r.status.live
    · simp [hw r hr hl]
    · cases (g r).status.live <;> simp [hj]
  · simp [hj]

theorem RefundEffect.succeeded_mono (e : RefundEffect i g xs t u) (j : Id) :
    succeededMinor t j ≤ succeededMinor u j := by
  unfold succeededMinor
  rw [e.sum]
  refine Nat.le_trans ?_ (Nat.le_add_right _ _)
  refine sum_le_sum fun r hr => ?_
  have hs := e.step r hr
  unfold succeededWeight
  rw [Function.comp_apply, hs.orderId, hs.amount]
  by_cases hr' : r.orderId = j ∧ r.status = .succeeded
  · rw [if_pos hr', if_pos ⟨hr'.1, e.final r hr hr'.2⟩]
  · rw [if_neg hr']
    exact Nat.zero_le _

theorem RefundEffect.succeeded_le (e : RefundEffect i g [] t u)
    (hw : ∀ r ∈ t.refunds.rows, (g r).status = .succeeded → r.status = .succeeded) (j : Id) :
    succeededMinor u j ≤ succeededMinor t j := by
  refine Table.sum_le_of_map (g := g) (by rw [e.rows, append_nil]) fun r hr => ?_
  have hs := e.step r hr
  unfold succeededWeight
  rw [hs.orderId, hs.amount]
  by_cases hg : r.orderId = j ∧ (g r).status = .succeeded
  · rw [if_pos hg, if_pos ⟨hg.1, hw r hr hg.2⟩]
  · rw [if_neg hg]
    exact Nat.zero_le _

end Effects

theorem admits_effect {strict : Prop} {own own' : Set (Id × Nat)} {i : Id} {t u : Db}
    {h : ShopOrder → ShopOrder} {g : Refund → Refund} {xs : List Refund}
    (eo : OrderEffect i h t u) (er : RefundEffect i g xs t u)
    (hatt : u.attempts = t.attempts) (hch : u.channels = t.channels)
    (hev : ∀ ev ∈ t.events.rows, ev ∈ u.events.rows) (hinv : BudgetInv strict t)
    (cap : ∀ o, t.orders.get? i = some o → (strict ∨ PaidByProvider t i) → liveMinor u i ≤ o.paidMinor)
    (budget : ∀ o, t.orders.get? i = some o → (h o).version = o.version →
      refundableStatus o.status = true → (strict ∨ PaidByProvider t i) →
      liveMinor u i ≤ liveMinor t i ∧ succeededMinor u i ≤ succeededMinor t i)
    (recorded : strict → ∀ o, t.orders.get? i = some o → ¬PaidByProvider t i → o.version < (h o).version →
      ∃ ev ∈ u.events.rows, ev.orderId = i ∧ ev.orderVersion = some (o.version + 1))
    (closed : ∀ o, t.orders.get? i = some o → FullyRefunded t o →
      (h o).status = .refunded ∨ (h o).status = .refunding)
    (provider : ∀ r ∈ t.refunds.rows, (g r).status ≠ .succeeded → r.status ≠ .succeeded)
    (providerNew : ∀ r ∈ xs, r.status ≠ .succeeded → PaidByProvider t i)
    (held : ∀ r ∈ t.refunds.rows, (r.id, r.attemptCount) ∉ own →
      (g r).attemptCount = r.attemptCount → r.status = .processing → (g r).status = .processing)
    (owned : own' ⊆ own ∪ ((refundSpec strict).issued u \ (refundSpec strict).issued t)) :
    (refundSpec strict).Admits own own' t u where
  guar := trivial
  owned := owned
  inv :=
    { cap := by
        intro k o hk hp
        rw [PaidByProvider.congr hatt hch] at hp
        rw [eo.get?] at hk
        obtain ⟨o0, h0, rfl⟩ := Option.map_eq_some_iff.mp hk
        have hpaid := (eo.step o0 (Table.get?_mem h0)).paid
        rw [hpaid]
        by_cases hki : k = i
        · subst hki
          exact cap o0 h0 hp
        · rw [er.live_other hki]
          exact hinv.cap k o0 h0 hp
      provider := by
        intro r hr hs
        rw [PaidByProvider.congr hatt hch]
        rw [er.rows] at hr
        rcases mem_append.mp hr with hr | hr
        · obtain ⟨r0, h0, rfl⟩ := mem_map.mp hr
          rw [(er.step r0 h0).orderId]
          exact hinv.provider r0 h0 (provider r0 h0 hs)
        · rw [er.new r hr]
          exact providerNew r hr hs }
  rely := by
    intro o hiss hdisj
    have hord : ∀ k x, t.orders.get? k = some x → ∃ x', u.orders.get? k = some x' ∧ OrderStep x x' := by
      intro k x hx
      exact ⟨h x, by rw [eo.get?, hx]; rfl, eo.step x (Table.get?_mem hx)⟩
    refine ⟨hatt, hch, hord, ?_, ?_, ?_, hev, ?_, ?_, ?_⟩
    · intro k hk
      rw [eo.get?, hk]
      rfl
    · intro k r hr
      exact ⟨g r, er.get? hr, er.step r (Table.get?_mem hr)⟩
    · intro k x x' hx hx' hv hs hp
      rw [eo.get?, hx, Option.map_some, Option.some.injEq] at hx'
      subst hx'
      by_cases hki : k = i
      · subst hki
        exact budget x hx hv hs hp
      · exact ⟨(er.live_other hki).le, (er.succeeded_other hki).le⟩
    · intro hst k x x' hx hx' hp hv
      rw [eo.get?, hx, Option.map_some, Option.some.injEq] at hx'
      subst hx'
      by_cases hki : k = i
      · subst hki
        exact recorded hst x hx hp hv
      · have hid : x.id = k := Table.get?_key hx
        rw [eo.other x (by rw [hid]; exact hki)] at hv
        omega
    · intro k x hx hf
      refine ⟨h x, by rw [eo.get?, hx]; rfl, ?_, ?_⟩
      · by_cases hki : k = i
        · subst hki
          exact closed x hx hf
        · have hid : x.id = k := Table.get?_key hx
          rw [eo.other x (by rw [hid]; exact hki)]
          exact hf.1
      · rw [(eo.step x (Table.get?_mem hx)).paid, (eo.step x (Table.get?_mem hx)).id]
        exact hf.2.trans (er.succeeded_mono _)
    · intro hh p hp r' hr' hatt'
      obtain ⟨r, hr, hle⟩ := hiss hp
      rw [er.get? hr, Option.some.injEq] at hr'
      subst hr'
      have hmem := Table.get?_mem hr
      have hkey : r.id = p.1 := Table.get?_key hr
      have hstep := (er.step r hmem).attempt
      have heq : r.attemptCount = p.2 := by omega
      refine held r hmem ?_ (by omega) (hh p hp r hr heq)
      rw [hkey, heq]
      exact fun hown => Set.disjoint_left.mp hdisj hp hown

/-! ## Updates of one refund row -/

section RefundRow

variable {strict : Prop} {t u : Db} {refundId orderId : Id}

section

variable (hrow : ∃ r, t.refunds.get? refundId = some r ∧ r.orderId = orderId)
include hrow

theorem refund_order (hr : r ∈ t.refunds.rows) (hid : r.id = refundId) : r.orderId = orderId := by
  obtain ⟨r0, h0, ho⟩ := hrow
  rw [Table.eq_of_key hr (Table.get?_mem h0) (hid.trans (Table.get?_key h0).symm)]
  exact ho

theorem refundEffect_single (hp : ∀ r, p r = true → r.id = refundId ∧ r.status ≠ .succeeded)
    (hf : ∀ r, p r = true → (f r).id = r.id ∧ RefundStep r (f r))
    (hrows : u.refunds.rows = t.refunds.rows.map (fun r => if p r then f r else r)) :
    RefundEffect orderId (fun r => if p r then f r else r) [] t u where
  rows := by rw [hrows, append_nil]
  key r := by
    by_cases h : p r = true
    · simp only [h, if_true]
      exact (hf r h).1
    · simp [h]
  step r _ := by
    by_cases h : p r = true
    · simp only [h, if_true]
      exact (hf r h).2
    · simp only [h, if_false, Bool.false_eq_true]
      exact RefundStep.refl r
  other r hr ho := by
    have h : ¬p r = true := fun h => ho (refund_order hrow hr (hp r h).1)
    simp [h]
  final r _ hs := by
    have h : ¬p r = true := fun h => (hp r h).2 hs
    simp [h, hs]
  new r hr := by cases hr

end

theorem holder_admits {rest : List (Stmt Db)} (hinv : BudgetInv strict t)
    (hrow : ∃ r, t.refunds.get? refundId = some r ∧ r.orderId = orderId)
    (hf : ∀ r, (f r).id = r.id ∧ RefundStep r (f r) ∧ (f r).status ≠ .succeeded)
    (hrest : ∀ st ∈ rest, Within RefundQuiet st)
    (hb : batch (updateRefunds (fun _ r => r.id == refundId && r.status == .processing &&
      r.attemptCount == n) (fun _ => f) :: rest) 0 t = .ok (ns, u)) :
    (refundSpec strict).Admits {(refundId, n)} ∅ t u := by
  obtain ⟨k, s1, ns', h1, h2, -⟩ := batch_cons_ok hb
  obtain ⟨-, hrows, ho, he, ha, hc⟩ := updateRefunds_effect h1 (fun _ r => (hf r).1)
  have hq := batch_quiet hrest h2
  have hp : ∀ r : Refund, (r.id == refundId && r.status == .processing && r.attemptCount == n) = true
      ↔ (r.id = refundId ∧ r.status = .processing) ∧ r.attemptCount = n := by simp
  have er := refundEffect_single (u := u) hrow (fun r h => ⟨((hp r).mp h).1.1, by rw [((hp r).mp h).1.2]; decide⟩)
    (fun r _ => ⟨(hf r).1, (hf r).2.1⟩) (by rw [hq.refunds]; exact hrows)
  have eo : OrderEffect orderId id t u := OrderEffect.refl orderId (hq.orders.trans ho)
  have hlive := er.live_le (fun r _ hl => by
    by_cases h : (r.id == refundId && r.status == .processing && r.attemptCount == n) = true
    · rw [((hp r).mp h).1.2] at hl
      cases hl
    · simpa [h] using hl)
  have hsucc := er.succeeded_le (fun r _ hs => by
    by_cases h : (r.id == refundId && r.status == .processing && r.attemptCount == n) = true
    · simp only [h, if_true] at hs
      exact absurd hs (hf r).2.2
    · simpa [h] using hs)
  refine admits_effect eo er (hq.attempts.trans ha) (hq.channels.trans hc)
    (fun ev h => hq.events ev (he ▸ h)) hinv ?_ ?_ ?_ ?_ ?_ ?_ ?_ (Set.empty_subset _)
  · intro o hi hp
    exact (hlive orderId).trans (hinv.cap orderId o hi hp)
  · exact fun _ _ _ _ _ => ⟨hlive orderId, hsucc orderId⟩
  · intro _ o _ _ hv
    exact absurd hv (lt_irrefl _)
  · exact fun o _ hfull => hfull.1
  · intro r _ hs
    by_cases h : (r.id == refundId && r.status == .processing && r.attemptCount == n) = true
    · rw [((hp r).mp h).1.2]
      decide
    · simpa [h] using hs
  · intro r hr
    cases hr
  · intro r _ hown _ hs
    have h : ¬(r.id == refundId && r.status == .processing && r.attemptCount == n) = true := by
      intro h
      exact hown (by rw [((hp r).mp h).1.1, ((hp r).mp h).2]; rfl)
    simpa [h] using hs

/-- The attempts a call holds after its claim reported `changed` rows. -/
def claimed (refundId : Id) (n changed : Nat) : Set (Id × Nat) :=
  if changed = 1 then {(refundId, n)} else ∅

section

variable (hinv : BudgetInv strict t) (hrow : ∃ r, t.refunds.get? refundId = some r ∧ r.orderId = orderId)
include hinv hrow

theorem claim_admits (hp : ∀ r, p r = true → r.id = refundId ∧ r.attemptCount = n ∧ r.status ≠ .succeeded)
    (hf : ∀ r, p r = true → (f r).id = r.id ∧ RefundStep r (f r) ∧ (f r).status = .processing ∧
      (f r).attemptCount = n + 1)
    (hfail : ∀ r, t.refunds.get? refundId = some r → p r = true → r.status.live = false →
      FitsBudget t r ∧ t.orderIs r.orderId (fun o => o.status == .refunding) = true)
    (hcount : c = t.refunds.count p)
    (hrows : u.refunds.rows = t.refunds.rows.map (fun r => if p r then f r else r)) (ho : u.orders = t.orders)
    (he : u.events = t.events) (ha : u.attempts = t.attempts) (hc : u.channels = t.channels) :
    (refundSpec strict).Admits ∅ (claimed refundId (n + 1) c) t u ∧ Holds u (claimed refundId (n + 1) c) := by
  obtain ⟨r0, h0, hord⟩ := hrow
  have er := refundEffect_single (u := u) ⟨r0, h0, hord⟩ (fun r h => ⟨(hp r h).1, (hp r h).2.2⟩)
    (fun r h => ⟨(hf r h).1, (hf r h).2.1⟩) hrows
  have eo : OrderEffect orderId id t u := OrderEffect.refl orderId ho
  have hmem := Table.get?_mem h0
  -- only the row of the claimed refund can change
  have hother : ∀ r ∈ t.refunds.rows, p r = true → r = r0 := by
    intro r hr hpr
    exact Table.eq_of_key hr hmem ((hp r hpr).1.trans (Table.get?_key h0).symm)
  have hhit : c = 1 → p r0 = true := by
    intro hone
    by_contra hp0
    have hzero : t.refunds.count p = 0 := by
      rw [Table.count_eq_zero]
      intro r hr
      by_contra hpr
      have hpr' : p r = true := by simpa using hpr
      exact hp0 (hother r hr hpr' ▸ hpr')
    omega
  have hsum : liveMinor u orderId + liveWeight orderId r0 =
      liveMinor t orderId + liveWeight orderId (if p r0 then f r0 else r0) := by
    refine Table.sum_map_single (g := fun r => if p r then f r else r) hrows hmem ?_
    intro r hr hne
    have h : ¬p r = true := fun h => hne (by rw [hother r hr h])
    simp [h]
  have hsucc := er.succeeded_le (fun r _ hs => by
    by_cases h : p r = true
    · simp only [h, if_true] at hs
      rw [(hf r h).2.2.1] at hs
      cases hs
    · simpa [h] using hs)
  have hw0 : liveWeight orderId r0 = if r0.status.live then r0.amountMinor else 0 := by
    simp [liveWeight, hord]
  have hw1 : p r0 = true → liveWeight orderId (f r0) = r0.amountMinor := by
    intro h
    have hs := (hf r0 h).2.1
    simp [liveWeight, hs.orderId, hord, hs.amount, (hf r0 h).2.2.1, RefundStatus.live]
  refine ⟨admits_effect eo er ha hc (by rw [he]; exact fun _ h => h) hinv ?_ ?_ ?_ ?_ ?_ ?_ ?_ ?_, ?_⟩
  · intro o hi hpaid
    have hcap := hinv.cap orderId o hi hpaid
    by_cases h : p r0 = true
    · rw [if_pos h, hw1 h, hw0] at hsum
      cases hl : r0.status.live
      · have hfit := (hfail r0 h0 h hl).1 o (by rw [hord]; exact hi)
        rw [hord] at hfit
        rw [hl] at hsum
        simp only [Bool.false_eq_true, if_false] at hsum
        omega
      · rw [hl] at hsum
        simp only [if_true] at hsum
        omega
    · rw [if_neg h] at hsum
      omega
  · intro o hi _ hst _
    refine ⟨?_, hsucc orderId⟩
    by_cases h : p r0 = true
    · rw [if_pos h, hw1 h, hw0] at hsum
      cases hl : r0.status.live
      · -- a failed refund is claimed only while its order is refunding
        obtain ⟨x, hx, hxs⟩ := Table.exist_iff.mp (hfail r0 h0 h hl).2
        simp only [Bool.and_eq_true, beq_iff_eq] at hxs
        have hxo : x = o := Table.eq_of_key hx (Table.get?_mem hi) ((hxs.1.trans hord).trans (Table.get?_key hi).symm)
        rw [← hxo, hxs.2] at hst
        cases hst
      · rw [hl] at hsum
        simp only [if_true] at hsum
        omega
    · rw [if_neg h] at hsum
      omega
  · intro _ o _ _ hv
    exact absurd hv (lt_irrefl _)
  · exact fun o _ hfull => hfull.1
  · intro r _ hs
    by_cases h : p r = true
    · exact (hp r h).2.2
    · simpa [h] using hs
  · intro r hr
    cases hr
  · intro r _ _ heq hs
    by_cases h : p r = true
    · simp only [h, if_true]
      exact (hf r h).2.2.1
    · simpa [h] using hs
  · -- the new attempt number was not issued before
    unfold claimed
    split
    · next hone =>
      rintro x rfl
      refine Or.inr ⟨?_, ?_⟩
      · have hp0 := hhit hone
        refine ⟨if p r0 then f r0 else r0, er.get? h0, ?_⟩
        simp only [hp0, if_true]
        exact (hf r0 hp0).2.2.2.ge
      · rintro ⟨r, hr, hle⟩
        rw [h0, Option.some.injEq] at hr
        subst hr
        have hp0 := hhit hone
        have := (hp r0 hp0).2.1
        simp only at hle
        omega
    · exact Set.empty_subset _
  · unfold claimed
    split
    · rintro x rfl r hr hatt
      rw [er.get? h0, Option.some.injEq] at hr
      subst hr
      next hone =>
      simp only [hhit hone, if_true]
      exact (hf r0 (hhit hone)).2.2.1
    · rintro x hx
      cases hx

theorem retry_admits (hpaid : PaidByProvider t orderId)
    (hfit : ∀ r, t.refunds.get? refundId = some r → r.status = .failed → FitsBudget t r)
    (hb : batch (retryBatch refundId orderId now) 0 t = .ok (ns, u)) : (refundSpec strict).Admits ∅ ∅ t u := by
  obtain ⟨n1, s1, ns1, h1, hb1, -⟩ := batch_cons_ok hb
  obtain ⟨n2, s2, ns2, h2, hb2, -⟩ := batch_cons_ok hb1
  obtain ⟨-, horows, hr1, he1, ha1, hc1⟩ := updateOrders_effect h1 (fun _ _ => rfl)
  obtain ⟨-, hrrows, ho2, he2, ha2, hc2⟩ := updateRefunds_effect h2 (fun _ _ => rfl)
  have hq : RefundQuiet s2 u := batch_quiet (fun st hst => by
    simp only [mem_cons, not_mem_nil, or_false] at hst
    subst hst
    exact keeps_quiet (insert_off rfl)) hb2
  obtain ⟨r0, h0, hord⟩ := hrow
  have hmem := Table.get?_mem h0
  let p : Refund → Bool := fun r => r.id == refundId && r.status == .failed
  let f : Refund → Refund := fun r =>
    { r with status := .pending, failureCode := none, nextAttemptAt := some now }
  have hp : ∀ r : Refund, p r = true ↔ r.id = refundId ∧ r.status = .failed := by simp [p]
  have hrows : u.refunds.rows = t.refunds.rows.map (fun r => if p r then f r else r) := by
    rw [hq.refunds, hrrows, hr1]
  have er := refundEffect_single (u := u) (p := p) (f := f) ⟨r0, h0, hord⟩
    (fun r h => ⟨((hp r).mp h).1, by rw [((hp r).mp h).2]; decide⟩)
    (fun r _ => ⟨rfl, rfl, rfl, le_rfl⟩) hrows
  let q : ShopOrder → Bool := fun o => o.id == orderId && o.status != .refunding
  let h : ShopOrder → ShopOrder := fun o =>
    if q o then advanceOrder .refunding now o else o
  have hq' : ∀ o : ShopOrder, q o = true ↔ o.id = orderId ∧ o.status ≠ .refunding := by simp [q]
  have eo : OrderEffect orderId h t u := by
    refine ⟨by rw [hq.orders, ho2, horows], fun o _ => ?_, fun o ho => ?_, fun o => ?_⟩
    · by_cases hqo : q o = true
      · simp only [h, hqo, if_true]
        exact ⟨rfl, rfl, Nat.le_succ _, fun hv => absurd hv (Nat.succ_ne_self _)⟩
      · simp only [h, hqo, if_false, Bool.false_eq_true]
        exact OrderStep.refl o
    · have hqo : ¬q o = true := fun hqo => ho ((hq' o).mp hqo).1
      simp [h, hqo]
    · by_cases hqo : q o = true <;> simp [h, hqo, advanceOrder]
  have hsum : liveMinor u orderId + liveWeight orderId r0 =
      liveMinor t orderId + liveWeight orderId (if p r0 then f r0 else r0) := by
    refine Table.sum_map_single (g := fun r => if p r then f r else r) hrows hmem ?_
    intro r hr hne
    have hpr : ¬p r = true := fun hpr =>
      hne (((hp r).mp hpr).1.trans (Table.get?_key h0).symm)
    simp [hpr]
  refine admits_effect eo er (hq.attempts.trans (ha2.trans ha1)) (hq.channels.trans (hc2.trans hc1))
    (fun ev hev => hq.events ev (by rw [he2, he1]; exact hev)) hinv ?_ ?_ ?_ ?_ ?_ ?_ ?_
    (Set.empty_subset _)
  · intro o hi hpd
    have hcap := hinv.cap orderId o hi hpd
    by_cases hp0 : p r0 = true
    · have hst := ((hp r0).mp hp0).2
      have hfit' := hfit r0 h0 hst o (by rw [hord]; exact hi)
      rw [if_pos hp0] at hsum
      simp only [liveWeight, hst, hord, f, RefundStatus.live] at hsum hfit'
      simp at hsum
      omega
    · rw [if_neg hp0] at hsum
      omega
  · intro o hi hv hst _
    exfalso
    have hid : o.id = orderId := Table.get?_key hi
    have hqo : q o = true := (hq' o).mpr ⟨hid, by intro h; rw [h] at hst; cases hst⟩
    simp only [h, hqo, if_true] at hv
    exact absurd hv (Nat.succ_ne_self _)
  · intro _ o _ hnp
    exact absurd hpaid hnp
  · intro o _ hfull
    by_cases hqo : q o = true
    · simp [h, hqo, advanceOrder]
    · simpa [h, hqo] using hfull.1
  · intro r _ hs
    by_cases hpr : p r = true
    · rw [((hp r).mp hpr).2]
      decide
    · simpa [hpr] using hs
  · intro r hr
    cases hr
  · intro r _ _ _ hs
    have hpr : ¬p r = true := by
      intro hpr
      rw [((hp r).mp hpr).2] at hs
      cases hs
    simpa [hpr] using hs

end

theorem finalize_effect (hclose : ∀ st ∈ close, Within RefundQuiet st)
    (hb : batch (finalizeBatch refund status fc pid n orderStatus now close) 0 t = .ok (ns, u)) :
    ∃ done : Bool, (done = true ↔ ∃ r ∈ u.refunds.rows, r.id = refund.id ∧ r.attemptCount = n ∧
        r.status = status ∧ r.completedAt = some now) ∧
      u.refunds.rows = t.refunds.rows.map (fun r =>
        if finalizable refund.id n r then finishedRefund status fc pid now r else r) ∧
      u.orders.rows = t.orders.rows.map (fun o =>
        if o.id == refund.orderId && done then advanceOrder orderStatus now o else o) ∧
      u.attempts = t.attempts ∧ u.channels = t.channels ∧
      ∀ ev ∈ t.events.rows, ev ∈ u.events.rows := by
  obtain ⟨n1, s1, ns1, h1, hb1, -⟩ := batch_cons_ok hb
  obtain ⟨n2, s2, ns2, h2, hb2, -⟩ := batch_cons_ok hb1
  obtain ⟨-, hrrows, ho1, he1, ha1, hc1⟩ := updateRefunds_effect h1 (fun _ _ => rfl)
  obtain ⟨-, horows, hr2, he2, ha2, hc2⟩ := updateOrders_effect h2 (fun _ _ => rfl)
  have hq : RefundQuiet s2 u := batch_quiet (fun st hst => by
    rcases mem_cons.mp hst with rfl | hst
    · exact insertEvents_quiet _ _
    rcases mem_cons.mp hst with rfl | hst
    · exact keeps_quiet (refundOutboxStatement_keeps (fun _ _ => rfl) _ _ _ _ _)
    · exact hclose st hst) hb2
  have hru : u.refunds = s1.refunds := hq.refunds.trans hr2
  refine ⟨completedRefund s1 refund.id n status now, ?_, by rw [hru, hrrows], ?_,
    hq.attempts.trans (ha2.trans ha1), hq.channels.trans (hc2.trans hc1),
    fun ev hev => hq.events ev (by rw [he2, he1]; exact hev)⟩
  · unfold completedRefund
    rw [Table.exist_iff, hru]
    simp [and_assoc]
  · rw [hq.orders, horows, ho1]

theorem finalize_admits (hinv : BudgetInv strict t)
    (hrow : ∃ r, t.refunds.get? refund.id = some r ∧ r.orderId = refund.orderId)
    (hheld : Holds t {(refund.id, n)}) (hclose : ∀ st ∈ close, Within RefundQuiet st)
    (hb : batch (finalizeBatch refund status fc pid n orderStatus now close) 0 t = .ok (ns, u)) :
    (refundSpec strict).Admits {(refund.id, n)} ∅ t u := by
  obtain ⟨done, hdone, hrows, horows, ha, hc, he⟩ := finalize_effect hclose hb
  obtain ⟨r0, h0, hord⟩ := hrow
  have hmem := Table.get?_mem h0
  have hid0 : r0.id = refund.id := Table.get?_key h0
  -- only the holder's row can be hit, and it is processing
  have hp : ∀ r ∈ t.refunds.rows, finalizable refund.id n r = true ↔ r = r0 ∧ r0.attemptCount = n := by
    intro r hr
    simp only [finalizable, Bool.and_eq_true, beq_iff_eq, Bool.or_eq_true]
    constructor
    · rintro ⟨⟨hid, -⟩, hn⟩
      have hrr := Table.eq_of_key hr hmem (hid.trans hid0.symm)
      exact ⟨hrr, hrr ▸ hn⟩
    · rintro ⟨rfl, hn⟩
      exact ⟨⟨hid0, Or.inl (hheld _ rfl r h0 hn)⟩, hn⟩
  have hproc : ∀ r ∈ t.refunds.rows, finalizable refund.id n r = true → r.status = .processing := by
    intro r hr hpr
    obtain ⟨rfl, hn⟩ := (hp r hr).mp hpr
    exact hheld _ rfl r h0 hn
  have hopen : ∀ r, finalizable refund.id n r = true →
      r.id = refund.id ∧ (r.status = .processing ∨ r.status = .failed) := by
    intro r hpr
    simp only [finalizable, Bool.and_eq_true, beq_iff_eq, Bool.or_eq_true] at hpr
    exact hpr.1
  have er := refundEffect_single (u := u) (p := finalizable refund.id n)
    (f := finishedRefund status fc pid now) ⟨r0, h0, hord⟩ (fun r hpr => by
      refine ⟨(hopen r hpr).1, ?_⟩
      rcases (hopen r hpr).2 with h | h <;> rw [h] <;> decide)
    (fun r _ => ⟨rfl, rfl, rfl, le_rfl⟩) hrows
  -- the order moves exactly when the refund row did
  have hhit : done = true ↔ finalizable refund.id n r0 = true := by
    rw [hdone]
    constructor
    · rintro ⟨r, hr, hid, hn, hs, -⟩
      have hru := er.get? h0
      have hrr : u.refunds.get? refund.id = some r := Table.get?_eq_some_iff.mpr ⟨hr, hid⟩
      rw [hru, Option.some.injEq] at hrr
      by_contra hpr
      rw [if_neg hpr] at hrr
      subst hrr
      exact hpr ((hp _ hmem).mpr ⟨rfl, hn⟩)
    · intro hpr
      refine ⟨finishedRefund status fc pid now r0, ?_, hid0, ((hp r0 hmem).mp hpr).2, rfl, rfl⟩
      have hru := er.get? h0
      rw [if_pos hpr] at hru
      exact Table.get?_mem hru
  let h : ShopOrder → ShopOrder := fun o =>
    if o.id == refund.orderId && done then advanceOrder orderStatus now o else o
  have eo : OrderEffect refund.orderId h t u := by
    refine ⟨horows, fun o _ => ?_, fun o ho => ?_, fun o => ?_⟩
    · by_cases hq : (o.id == refund.orderId && done) = true
      · simp only [h, hq, if_true]
        exact ⟨rfl, rfl, Nat.le_succ _, fun hv => absurd hv (Nat.succ_ne_self _)⟩
      · simp only [h, hq, if_false, Bool.false_eq_true]
        exact OrderStep.refl o
    · simp [h, ho]
    · by_cases hq : (o.id == refund.orderId && done) = true
      · simp only [h, hq, if_true]
        rfl
      · simp only [h, hq, if_false, Bool.false_eq_true]
  have hlive := er.live_le (fun r hr hl => by
    by_cases hpr : finalizable refund.id n r = true
    · rw [hproc r hr hpr] at hl
      cases hl
    · simpa [hpr] using hl)
  refine admits_effect eo er ha hc he hinv ?_ ?_ ?_ ?_ ?_ ?_ ?_ (Set.empty_subset _)
  · intro o hi hpd
    exact (hlive refund.orderId).trans (hinv.cap refund.orderId o hi hpd)
  · intro o hi hv _ _
    refine ⟨hlive refund.orderId, er.succeeded_le (fun r hr hs => ?_) refund.orderId⟩
    by_cases hpr : finalizable refund.id n r = true
    · exfalso
      obtain ⟨rfl, -⟩ := (hp r hr).mp hpr
      have hid : o.id = refund.orderId := Table.get?_key hi
      simp only [h, hhit.mpr hpr, hid, beq_self_eq_true, Bool.and_self, if_true] at hv
      exact absurd hv (Nat.succ_ne_self _)
    · simpa [hpr] using hs
  · intro _ o hi hnp hv
    exfalso
    by_cases hd : done = true
    · have hst := hproc r0 hmem (hhit.mp hd)
      exact hnp (hord ▸ hinv.provider r0 hmem (by rw [hst]; decide))
    · simp [h, hd] at hv
  · intro o hi hfull
    by_cases hd : done = true
    · -- a processing refund beside a full refund would break the cap
      exfalso
      have hst := hproc r0 hmem (hhit.mp hd)
      have hpaid : PaidByProvider t refund.orderId :=
        hord ▸ hinv.provider r0 hmem (by rw [hst]; decide)
      have hcap := hinv.cap refund.orderId o hi (Or.inr hpaid)
      have hsl := succeeded_add_le_live hmem (by rw [hst]; rfl) (by rw [hst]; decide)
      have hpos := refund_amount_pos hmem
      have hid : o.id = refund.orderId := Table.get?_key hi
      have hf := hfull.2
      rw [hid] at hf
      rw [hord] at hsl
      exact Nat.not_lt.mpr (hsl.trans (hcap.trans hf)) (Nat.lt_add_of_pos_right hpos)
    · simpa [h, hd] using hfull.1
  · intro r hr hs
    by_cases hpr : finalizable refund.id n r = true
    · rw [hproc r hr hpr]
      decide
    · simpa [hpr] using hs
  · intro r hr
    cases hr
  · intro r hr hown _ hs
    have hpr : ¬finalizable refund.id n r = true := by
      intro hpr
      obtain ⟨rfl, hn⟩ := (hp r hr).mp hpr
      exact hown (by rw [hn, hid0]; rfl)
    simpa [hpr] using hs

end RefundRow

end Gmshop
