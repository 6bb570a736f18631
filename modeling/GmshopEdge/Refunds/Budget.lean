import GmshopEdge.Refunds.Service

/-!
# The refund budget of an order

`liveMinor` is what an order's pending, processing and succeeded refunds add up to, `succeededMinor`
what its succeeded ones do. `Rely` is what a refund call may assume of the steps of the others:
payments do not change, an order's version tells whether its status could have, while the version of
a refundable order stands its refunds do not grow, and the holder of an attempt number is the only
one to move that refund. `refundSpec` packs this with the cap as the invariant.

A refund that is not succeeded always belongs to an order paid through a provider
(`PaidByProvider`). For an order paid from the wallet the cap rests on the unique index on
(order, version) of the event table instead, which only helps while every version has its event;
`strict` says whether the system keeps that.
-/

namespace Gmshop

open List Sql Stmt

/-! ## The sums -/

/-- What a refund counts for in `liveMinor`. -/
def liveWeight (o : Id) (r : Refund) : Nat :=
  if r.orderId = o ∧ r.status.live then r.amountMinor else 0

def succeededWeight (o : Id) (r : Refund) : Nat :=
  if r.orderId = o ∧ r.status = .succeeded then r.amountMinor else 0

def liveMinor (s : Db) (o : Id) : Nat := s.refunds.sum (liveWeight o)

def succeededMinor (s : Db) (o : Id) : Nat := s.refunds.sum (succeededWeight o)

theorem live_of_succeeded {st : RefundStatus} (h : st = .succeeded) : st.live = true := by
  subst h; rfl

theorem succeededWeight_le (o : Id) (r : Refund) : succeededWeight o r ≤ liveWeight o r := by
  unfold succeededWeight liveWeight
  split
  · next h => rw [if_pos ⟨h.1, live_of_succeeded h.2⟩]
  · exact Nat.zero_le _

theorem refund_amount_pos {s : Db} {r : Refund} (h : r ∈ s.refunds.rows) : 0 < r.amountMinor := by
  have := s.refunds.valid r h
  simp only [Row.valid, Bool.and_eq_true, decide_eq_true_eq] at this
  exact this.1

theorem sum_filter_amounts (xs : List Refund) (p : Refund → Bool) (w : Refund → Nat)
    (hw : ∀ r, w r = if p r then r.amountMinor else 0) :
    ((xs.filter p).map fun r => (r.amountMinor : Int)).sum = ((xs.map w).sum : Nat) := by
  induction xs with
  | nil => rfl
  | cons x xs ih =>
    rw [map_cons, sum_cons, hw x]
    cases hp : p x
    · rw [filter_cons_of_neg (by simp [hp]), ih]
      simp
    · rw [filter_cons_of_pos hp, map_cons, sum_cons, ih]
      simp

theorem reserved_sum (s : Db) (o : Id) :
    ((reservedRefunds s o).map fun r => (r.amountMinor : Int)).sum = liveMinor s o := by
  refine sum_filter_amounts _ _ _ fun r => ?_
  unfold liveWeight
  by_cases h : r.orderId = o <;> cases r.status.live <;> simp [h]

theorem succeeded_sum (s : Db) (o : Id) :
    ((succeededRefunds s o).map fun r => (r.amountMinor : Int)).sum = succeededMinor s o := by
  refine sum_filter_amounts _ _ _ fun r => ?_
  unfold succeededWeight
  by_cases h : r.orderId = o <;> by_cases h' : r.status = .succeeded <;> simp [h, h']

theorem succeeded_add_le_live {s : Db} {r : Refund} (hr : r ∈ s.refunds.rows)
    (hl : r.status.live = true) (hs : r.status ≠ .succeeded) :
    succeededMinor s r.orderId + r.amountMinor ≤ liveMinor s r.orderId := by
  have hlw : liveWeight r.orderId r = r.amountMinor := by simp [liveWeight, hl]
  have hsw : succeededWeight r.orderId r = 0 := by simp [succeededWeight, hs]
  have hk := s.refunds.keys_pairwise
  unfold succeededMinor liveMinor Table.sum
  generalize s.refunds.rows = xs at hr hk
  induction xs with
  | nil => cases hr
  | cons x xs ih =>
    rw [pairwise_cons] at hk
    simp only [map_cons, sum_cons]
    rcases mem_cons.mp hr with rfl | hr'
    · have : (xs.map (succeededWeight r.orderId)).sum ≤ (xs.map (liveWeight r.orderId)).sum :=
        sum_le_sum fun y _ => succeededWeight_le _ y
      omega
    · have := ih hr' hk.2
      have := succeededWeight_le r.orderId x
      omega

/-! ## The promises -/

/-- The payment a refund request finds: the latest succeeded attempt with its channel. -/
def PaidByProvider (s : Db) (o : Id) : Prop :=
  ∃ a c, succeededAttempt s o = some a ∧ s.channels.get? a.channelId = some c

structure OrderStep (o o' : ShopOrder) : Prop where
  id : o'.id = o.id
  paid : o'.paidMinor = o.paidMinor
  version : o.version ≤ o'.version
  status : o'.version = o.version → o'.status = o.status

structure RefundStep (r r' : Refund) : Prop where
  orderId : r'.orderId = r.orderId
  amount : r'.amountMinor = r.amountMinor
  attempt : r.attemptCount ≤ r'.attemptCount

def FullyRefunded (s : Db) (o : ShopOrder) : Prop :=
  (o.status = .refunded ∨ o.status = .refunding) ∧ o.paidMinor ≤ succeededMinor s o.id

/-- The holder of attempt `p.2` of refund `p.1` finds it processing as long as no later attempt was
claimed. -/
def Holds (s : Db) (own : Set (Id × Nat)) : Prop :=
  ∀ p ∈ own, ∀ r, s.refunds.get? p.1 = some r → r.attemptCount = p.2 → r.status = .processing

/-- What a call that holds the attempts `own` may assume of the steps of the others. -/
structure Rely (strict : Prop) (own : Set (Id × Nat)) (s t : Db) : Prop where
  attempts : t.attempts = s.attempts
  channels : t.channels = s.channels
  orders : ∀ i o, s.orders.get? i = some o → ∃ o', t.orders.get? i = some o' ∧ OrderStep o o'
  noOrder : ∀ i, s.orders.get? i = none → t.orders.get? i = none
  refunds : ∀ i r, s.refunds.get? i = some r → ∃ r', t.refunds.get? i = some r' ∧ RefundStep r r'
  /-- While the version of a refundable order stands, its refunds do not grow. -/
  budget : ∀ i o o', s.orders.get? i = some o → t.orders.get? i = some o' →
    o'.version = o.version → refundableStatus o.status = true → (strict ∨ PaidByProvider s i) →
    liveMinor t i ≤ liveMinor s i ∧ succeededMinor t i ≤ succeededMinor s i
  /-- The first version after the present one of a wallet order is on record once it is passed. -/
  eventsMono : ∀ ev ∈ s.events.rows, ev ∈ t.events.rows
  recorded : strict → ∀ i o o', s.orders.get? i = some o → t.orders.get? i = some o' →
    ¬PaidByProvider s i → o.version < o'.version →
    ∃ ev ∈ t.events.rows, ev.orderId = i ∧ ev.orderVersion = some (o.version + 1)
  closed : ∀ i o, s.orders.get? i = some o → FullyRefunded s o →
    ∃ o', t.orders.get? i = some o' ∧ FullyRefunded t o'
  held : Holds s own → Holds t own

theorem PaidByProvider.congr {s t : Db} {o : Id} (ha : t.attempts = s.attempts)
    (hc : t.channels = s.channels) : PaidByProvider t o ↔ PaidByProvider s o := by
  unfold PaidByProvider succeededAttempt
  rw [ha, hc]

theorem OrderStep.refl (o : ShopOrder) : OrderStep o o := ⟨rfl, rfl, le_rfl, fun _ => rfl⟩

theorem OrderStep.trans {a b c : ShopOrder} (h : OrderStep a b) (h' : OrderStep b c) : OrderStep a c where
  id := h'.id.trans h.id
  paid := h'.paid.trans h.paid
  version := h.version.trans h'.version
  status hv := by
    have h1 := h.version
    have h2 := h'.version
    rw [h'.status (by omega), h.status (by omega)]

theorem RefundStep.refl (r : Refund) : RefundStep r r := ⟨rfl, rfl, le_rfl⟩

theorem RefundStep.trans {a b c : Refund} (h : RefundStep a b) (h' : RefundStep b c) : RefundStep a c :=
  ⟨h'.orderId.trans h.orderId, h'.amount.trans h.amount, h.attempt.trans h'.attempt⟩

theorem Rely.refl (strict : Prop) (own : Set (Id × Nat)) (s : Db) : Rely strict own s s where
  attempts := rfl
  channels := rfl
  orders _ o h := ⟨o, h, OrderStep.refl o⟩
  noOrder _ h := h
  refunds _ r h := ⟨r, h, RefundStep.refl r⟩
  budget _ _ _ _ _ _ _ _ := ⟨le_rfl, le_rfl⟩
  eventsMono _ h := h
  recorded _ i o o' ho ho' _ hv := by
    rw [ho, Option.some.injEq] at ho'
    subst ho'
    omega
  closed _ o h hc := ⟨o, h, hc⟩
  held h := h

theorem Rely.trans {strict : Prop} {own : Set (Id × Nat)} {s t u : Db} (h : Rely strict own s t)
    (h' : Rely strict own t u) : Rely strict own s u where
  attempts := h'.attempts.trans h.attempts
  channels := h'.channels.trans h.channels
  orders i o ho := by
    obtain ⟨o1, h1, s1⟩ := h.orders i o ho
    obtain ⟨o2, h2, s2⟩ := h'.orders i o1 h1
    exact ⟨o2, h2, s1.trans s2⟩
  noOrder i hi := h'.noOrder i (h.noOrder i hi)
  refunds i r hr := by
    obtain ⟨r1, h1, s1⟩ := h.refunds i r hr
    obtain ⟨r2, h2, s2⟩ := h'.refunds i r1 h1
    exact ⟨r2, h2, s1.trans s2⟩
  budget i o o' ho ho' hv hs hp := by
    obtain ⟨o1, h1, s1⟩ := h.orders i o ho
    obtain ⟨o2, h2, s2⟩ := h'.orders i o1 h1
    rw [ho', Option.some.injEq] at h2
    subst h2
    have v1 := s1.version
    have v2 := s2.version
    have e1 : o1.version = o.version := by omega
    have b1 := h.budget i o o1 ho h1 e1 hs hp
    have b2 := h'.budget i o1 o' h1 ho' (by omega) (s1.status e1 ▸ hs)
      (hp.imp id (PaidByProvider.congr h.attempts h.channels).mpr)
    exact ⟨b2.1.trans b1.1, b2.2.trans b1.2⟩
  eventsMono ev he := h'.eventsMono ev (h.eventsMono ev he)
  recorded hst i o o' ho ho' hp hv := by
    obtain ⟨o1, h1, s1⟩ := h.orders i o ho
    rcases Nat.lt_or_ge o.version o1.version with hlt | hge
    · obtain ⟨ev, hev, e1, e2⟩ := h.recorded hst i o o1 ho h1 hp hlt
      exact ⟨ev, h'.eventsMono ev hev, e1, e2⟩
    · have he : o1.version = o.version := le_antisymm hge s1.version
      obtain ⟨ev, hev, e1, e2⟩ := h'.recorded hst i o1 o' h1 ho'
        (fun hp' => hp ((PaidByProvider.congr h.attempts h.channels).mp hp')) (by omega)
      exact ⟨ev, hev, e1, by rw [e2, he]⟩
  closed i o ho hc := by
    obtain ⟨o1, h1, c1⟩ := h.closed i o ho hc
    exact h'.closed i o1 h1 c1
  held hh := h'.held (h.held hh)

/-! ## The conditions -/

/-- The check of `requestShopRefund`, made on a refund that becomes live again. -/
def FitsBudget (s : Db) (r : Refund) : Prop :=
  ∀ o ∈ s.orders.get? r.orderId, liveMinor s r.orderId + r.amountMinor ≤ o.paidMinor

instance (s : Db) (r : Refund) : Decidable (FitsBudget s r) :=
  inferInstanceAs (Decidable (∀ o ∈ s.orders.get? r.orderId, _))

/-- The condition on the batches: a failed refund that is taken up again fits what is left of its
order (and is taken up by a claim only while the order is refunding), and a refund from the balance
finds none of the order's refunds open. -/
def budgetChecked (x : Site) (s : Db) : Prop :=
  match x with
  | .retryShopRefund refundId => ∀ r ∈ s.refunds.get? refundId, r.status = .failed → FitsBudget s r
  | .claimRefundAttempt refundId attemptCount now => ∀ r ∈ s.refunds.get? refundId,
      claimable refundId attemptCount now r = true → r.status = .failed →
      FitsBudget s r ∧ s.orderIs r.orderId (fun o => o.status == .refunding) = true
  | .refundAllocatedBalance orderId status version _ =>
      s.orderIs orderId (orderCas orderId status version) = true →
      ∀ r ∈ s.refunds.rows, r.orderId = orderId → r.status ≠ .pending ∧ r.status ≠ .processing
  | _ => True

instance (x : Site) (s : Db) : Decidable (budgetChecked x s) := by
  casesm Site <;> dsimp only [budgetChecked] <;> infer_instance

/-- The cap, and what keeps it: an unfinished or failed refund belongs to a provider payment. -/
structure BudgetInv (strict : Prop) (s : Db) : Prop where
  cap : ∀ i o, s.orders.get? i = some o → (strict ∨ PaidByProvider s i) →
    liveMinor s i ≤ o.paidMinor
  provider : ∀ r ∈ s.refunds.rows, r.status ≠ .succeeded → PaidByProvider s r.orderId

def refundSpec (strict : Prop) : Spec Db Site (Id × Nat) where
  inv := BudgetInv strict
  cond := budgetChecked
  guar _ _ := True
  rely := Rely strict
  issued s := {p | ∃ r, s.refunds.get? p.1 = some r ∧ p.2 ≤ r.attemptCount}
  guar_refl _ := trivial
  rely_refl := Rely.refl strict
  rely_trans _ _ _ _ := Rely.trans
  issued_mono s t h := by
    rintro p ⟨r, hr, hp⟩
    obtain ⟨r', hr', hs⟩ := h.refunds _ r hr
    exact ⟨r', hr', hp.trans hs.attempt⟩

end Gmshop
