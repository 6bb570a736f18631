import GmshopEdge.Refunds.Calls
import GmshopEdge.Refunds.WalletRefunds

/-!
# Refunds in the payment's currency

Every refund through a payment is converted on its own and rounded up, and the refund of all that is left takes what is
left of the payment. The converted refunds never exceed the payment, but small ones can use it up before the order is
refunded; the rest is then refused.

    all that is left can be refunded  ↔  the refunds so far are less than the payment  (converted_refunds_exhaust)
-/

namespace Gmshop

open List Sql Stmt Bool Prog

/-! ## The refunds of an order in the payment's currency -/

def paymentMinor (orderId : Id) (s : Db) : Int :=
  ((reservedRefunds s orderId).map fun r => if r.paymentAttemptId.isNone then 0 else r.paymentAmountMinor).sum

/-- What a refund call reads of an order's payment, apart from the refunds. -/
def paymentRead (orderId : Id) (s : Db) :=
  (s.attempts, s.channels, s.items, s.agentOrders, (s.orders.get? orderId).map (·.paidMinor))

def AgentOrder (orderId : Id) (s : Db) : Prop :=
  (s.items.exist fun i => i.orderId == orderId && s.agentOrders.exist fun a => a.orderItemId == i.id) = true

instance (orderId : Id) (s : Db) : Decidable (AgentOrder orderId s) := inferInstanceAs (Decidable (_ = true))

/-- An order with `paid` paid through the payment `a`, of which its refunds take no more than there is. -/
structure PaidThrough (orderId : Id) (paid : Minor) (a : PaymentAttempt) (s : Db) : Prop where
  order : (s.orders.get? orderId).map (·.paidMinor) = some paid
  attempt : succeededAttempt s orderId = some a
  channel : (s.channels.get? a.channelId).isSome = true
  capped : paymentMinor orderId s ≤ a.amountMinor
  access : AgentOrder orderId s → liveMinor s orderId = 0

/-- What the other calls do between two requests: no refund of the order is taken up again. -/
structure Between (orderId : Id) (s t : Db) : Prop where
  order : (t.orders.get? orderId).map (·.paidMinor) = (s.orders.get? orderId).map (·.paidMinor)
  attempt : succeededAttempt t orderId = succeededAttempt s orderId
  channel : ∀ id, (s.channels.get? id).isSome = true → (t.channels.get? id).isSome = true
  payment : paymentMinor orderId t ≤ paymentMinor orderId s
  live : liveMinor t orderId ≤ liveMinor s orderId
  access : AgentOrder orderId t → AgentOrder orderId s

/-- A partial refund of the order is accepted, or another call takes a step. -/
inductive RefundsOn (orderId : Id) : Db → Db → Prop
  | partialRefund {s t : Db} (input : RefundRequest) (e : RefundEnv) (reply : RefundReply)
      (horder : input.orderId = orderId) (hpart : (input.amountMinor : Int) < stillRefundable s orderId)
      (haccepted : (requestShopRefund input e).alone s = (.ok reply, t)) : RefundsOn orderId s t
  | other {s t : Db} (h : Between orderId s t) : RefundsOn orderId s t

/-! ## What the statements leave alone -/

variable {s t : Db} {st : Stmt Db} {orderId : Id} {c n : Nat} {ns : List Nat} {a : PaymentAttempt}
  {amountMinor paid : Minor}

section Keeps

variable {orderId : Id}

def paymentShare (orderId : Id) (r : Refund) : Int :=
  if r.orderId == orderId && r.status.live then (if r.paymentAttemptId.isNone then 0 else r.paymentAmountMinor) else 0

theorem paymentMinor_eq (orderId : Id) (s : Db) :
    paymentMinor orderId s = (s.refunds.rows.map (paymentShare orderId)).sum := by
  unfold paymentMinor reservedRefunds
  induction s.refunds.rows with
  | nil => rfl
  | cons r rs ih =>
    rw [map_cons, sum_cons, ← ih, paymentShare]
    by_cases hlive : (r.orderId == orderId && r.status.live) = true
    · rw [filter_cons_of_pos (p := fun r : Refund => r.orderId == orderId && r.status.live) hlive, if_pos hlive,
        map_cons, sum_cons]
    · rw [filter_cons_of_neg (p := fun r : Refund => r.orderId == orderId && r.status.live) hlive, if_neg hlive, Int.zero_add]

theorem paymentMinor_append {xs : List Refund} (h : t.refunds.rows = s.refunds.rows ++ xs) :
    paymentMinor orderId t = paymentMinor orderId s + (xs.map (paymentShare orderId)).sum := by
  rw [paymentMinor_eq, paymentMinor_eq, h, map_append, sum_append]

theorem paymentMinor_of_refunds (h : t.refunds = s.refunds) : paymentMinor orderId t = paymentMinor orderId s := by
  unfold paymentMinor reservedRefunds
  rw [h]

theorem updateOrders_paymentRead {p : Db → ShopOrder → Bool} {f : Db → ShopOrder → ShopOrder}
    (hf : ∀ s o, (f s o).id = o.id ∧ (f s o).paidMinor = o.paidMinor) : Keeps (paymentRead orderId) (updateOrders p f) := by
  intro c s n t h
  have hkept := Keeps.eq (updateOrders_keeps (g := fun s => (s.attempts, s.channels, s.items, s.agentOrders))
    (by constructor <;> exact fun _ _ => rfl) fun _ _ => rfl) h
  have hget := Table.get?_map (updateOrders_rows (fun s o => (hf s o).1) h).2 (fun o => by
    split
    · exact (hf s o).1
    · rfl) orderId
  have horder : (t.orders.get? orderId).map (·.paidMinor) = (s.orders.get? orderId).map (·.paidMinor) := by
    rw [hget, Option.map_map]
    refine congrArg (fun g => Option.map g (s.orders.get? orderId)) (funext fun o => ?_)
    show ShopOrder.paidMinor (if p s o = true then f s o else o) = o.paidMinor
    split
    · exact (hf s o).2
    · rfl
  simp only [Prod.mk.injEq] at hkept
  obtain ⟨ha, hc, hi, hg⟩ := hkept
  unfold paymentRead
  rw [ha, hc, hi, hg, horder]

/-- A statement that leaves the orders, the refunds and the payments alone. -/
def requestCore (s : Db) := (s.attempts, s.channels, s.items, s.agentOrders, s.orders, s.refunds)

def Calm (orderId : Id) (st : Stmt Db) : Prop := Keeps (paymentRead orderId) st ∧ Keeps (paymentMinor orderId) st

theorem calm_of_core (h : Keeps requestCore st) : Calm orderId st := by
  constructor
  · intro c s n t hst
    have hkept := h c s n t hst
    simp only [requestCore, Prod.mk.injEq] at hkept
    obtain ⟨ha, hc, hi, hg, ho, -⟩ := hkept
    unfold paymentRead
    rw [ha, hc, hi, hg, ho]
  · intro c s n t hst
    have hkept := h c s n t hst
    simp only [requestCore, Prod.mk.injEq] at hkept
    exact paymentMinor_of_refunds hkept.2.2.2.2.2

theorem setStatus_calm (p : Db → ShopOrder → Bool) (next : ShopOrderStatus) (v : Nat) (now : Time) :
    Calm orderId (updateOrders p fun _ o => setStatus next v now o) :=
  ⟨updateOrders_paymentRead fun _ _ => ⟨rfl, rfl⟩, fun _ _ _ _ h => paymentMinor_of_refunds
    (updateOrders_effect h fun _ _ => rfl).2.2.1⟩

theorem insertRefund_paymentRead (g : Db → List Refund) : Keeps (paymentRead orderId) (insertRefund g) :=
  insertRefund_keeps (by constructor <;> exact fun _ _ => rfl) fun _ _ => rfl

theorem insertRefund_calm {g : Db → List Refund} (h : ∀ s, ∀ r ∈ g s, r.paymentAttemptId = none) :
    Calm orderId (insertRefund g) := by
  refine ⟨insertRefund_paymentRead g, fun c s n t hst => ?_⟩
  show paymentMinor orderId t = paymentMinor orderId s
  rw [paymentMinor_append (insertRefund_rows hst).2, sum_eq_zero, Int.add_zero]
  intro x hx
  obtain ⟨r, hr, rfl⟩ := mem_map.mp hx
  unfold paymentShare
  rw [h s r hr]
  split <;> rfl

theorem CloseStmt.calm (h : CloseStmt st) : Calm orderId st :=
  calm_of_core (h.keeps (by constructor <;> exact fun _ _ => rfl))

theorem updateSplit_calm (id : Id) (sp : PromotionSplit) :
    Calm orderId (update Db.refundsT (fun _ r => r.id == id) fun _ r => { r with
      cashReturnMinor := sp.cash, rewardReturnMinor := sp.reward, referralReversalMinor := sp.reversal }) := by
  refine ⟨update_off rfl, fun c s n t h => ?_⟩
  obtain ⟨-, table, hrows, rfl⟩ := update_ok h
  rw [paymentMinor_eq, paymentMinor_eq, show (Db.refundsT.set s table).refunds.rows = _ from hrows, map_map]
  refine congrArg sum (map_congr_left fun r _ => ?_)
  show paymentShare orderId (if r.id == id then _ else r) = _
  split <;> rfl

end Keeps

theorem closeTail_calm {closed : Id} {revoke : List (Stmt Db)} (hrevoke : ∀ st ∈ revoke, CloseStmt st)
    (full : Prop) [Decidable full] :
    ∀ st ∈ (if full then revoke ++ cancelOpenFulfillmentStatements closed else []), Calm orderId st := by
  intro st hst
  by_cases hfull : full
  · rw [if_pos hfull] at hst
    rcases mem_append.mp hst with hst | hst
    · exact (hrevoke st hst).calm
    · exact (CloseStmt.cancel _ st hst).calm
  · rw [if_neg hfull] at hst
    cases hst

/-! ## One request -/

section Request

variable {orderId : Id} {input : RefundRequest} {e : RefundEnv} {s : Db}

theorem refundAllocatedBalance_only_calm (split : PromotionSplit) :
    Prog.Only (Calm orderId) (refundAllocatedBalance input split e) := by
  refine Prog.Only.reads require_reads fun _ _ => Prog.Only.reads (revokeWhen_reads _ _ _ _) fun revoke hrevoke =>
    Prog.Only.bind (Prog.Only.commit fun st hst => ?_) fun _ => Prog.Only.reads require_reads fun _ _ => trivial
  rcases mem_append.mp hst with hst | hst
  · refine each_three ?_ ?_ ?_ _ hst
    · exact setStatus_calm _ _ _ _
    · have hrows : ∀ changes : Nat, Calm orderId (insertRefund fun s => if changes = 1 then
          s.fromOrder split.order.id (fun o => o.version == split.order.version + 1) fun o =>
            { id := e.uuid, orderId := o.id, paymentAttemptId := none
              idempotencyKey := input.idempotencyKey, amountMinor := input.amountMinor
              paymentAmountMinor := input.amountMinor, orderStatusBefore := split.order.status
              status := .succeeded, completedAt := some e.now, cashReturnMinor := split.cash
              rewardReturnMinor := split.reward, referralReversalMinor := split.reversal }
          else []) := by
        intro changes
        refine insertRefund_calm fun s r hr => ?_
        split at hr
        · obtain ⟨o, -, rfl⟩ := mem_map.mp hr
          rfl
        · cases hr
      exact ⟨fun c s n t h => (hrows c).1 c s n t h, fun c s n t h => (hrows c).2 c s n t h⟩
    · exact (CloseStmt.events _).calm
  · exact closeTail_calm hrevoke _ st hst

/-! ### The batch through the payment -/

section Batch

variable (input : RefundRequest) (o : RefundableOrder) (amount : Int) (split : Option PromotionSplit) (manual : Bool)
  (id : Id) (now : Time)

def requestedRow (x : ShopOrder) : Refund where
  id := id
  orderId := x.id
  paymentAttemptId := some o.attempt.id
  idempotencyKey := input.idempotencyKey
  amountMinor := input.amountMinor
  paymentAmountMinor := amount
  orderStatusBefore := o.order.status
  status := if manual then .processing else .pending
  failureCode := if manual then some .manualActionRequired else none
  nextAttemptAt := some now

def requestedEvent (x : ShopOrder) : ShopOrderEvent where
  orderId := x.id
  eventType := .refundRequested
  fromStatus := some o.order.status
  toStatus := some .refunding
  orderVersion := some (o.order.version + 1)

def moved (x : ShopOrder) : Bool := x.status == .refunding && x.version == o.order.version + 1

def takeOrder : Stmt Db :=
  updateOrders (fun _ x => orderCas o.order.id o.order.status o.order.version x)
    (fun _ x => setStatus .refunding (o.order.version + 1) now x)

def recordRequested : Stmt Db :=
  onChanges fun changes => insertRefund fun s =>
    if changes = 1 then s.fromOrder o.order.id (moved o) (requestedRow input o amount manual id now) else []

def recordRequestedEvent : Stmt Db :=
  insert Db.eventsT .abort fun s => s.fromOrder o.order.id (moved o) (requestedEvent o)

def requestTail : List (Stmt Db) :=
  (if manual then [] else [refundOutboxStatement id .refundRequested now]) ++ (match split with
      | none => []
      | some sp => [update Db.refundsT (fun _ r => r.id == id) fun _ r => { r with
          cashReturnMinor := sp.cash, rewardReturnMinor := sp.reward, referralReversalMinor := sp.reversal }])

theorem requestBatch_eq : requestBatch input o amount split manual id now =
    takeOrder o now :: recordRequested input o amount manual id now :: recordRequestedEvent o ::
      requestTail split manual id now := rfl

end Batch

section

variable (split : Option PromotionSplit) (manual : Bool) (id : Id) (now : Time)
include split manual id now

theorem requestTail_calm : ∀ st ∈ requestTail split manual id now, Calm orderId st := by
  intro st hst
  rcases mem_append.mp hst with hst | hst
  · split at hst
    · cases hst
    · rw [mem_singleton.mp hst]
      exact (CloseStmt.outbox _).calm
  · split at hst
    · cases hst
    · rw [mem_singleton.mp hst]
      exact updateSplit_calm _ _

theorem requestTail_total : ∀ st ∈ requestTail split manual id now, Total st := by
  intro st hst
  rcases mem_append.mp hst with hst | hst
  · split at hst
    · cases hst
    · rw [mem_singleton.mp hst]
      refine insert_isTotal fun s r hr => ?_
      rfl
  · split at hst
    · cases hst
    · rw [mem_singleton.mp hst]
      exact update_isTotal (fun s a b => by split <;> split <;> rfl) fun s r => by split <;> rfl

end

section Effects

variable {o : RefundableOrder} {amount : Int} {split : Option PromotionSplit} {manual : Bool} {id : Id} {now : Time} {t : Db}

theorem requestedRow_share (x : ShopOrder) (hx : x.id = orderId) :
    paymentShare orderId (requestedRow input o amount manual id now x) = amount := by
  unfold paymentShare requestedRow
  cases manual <;> rw [hx, beq_self_eq_true] <;> rfl

theorem recordRequested_ok (h : recordRequested input o amount manual id now c s = .ok (n, t)) :
    insertRefund (fun s => if c = 1 then s.fromOrder o.order.id (moved o) (requestedRow input o amount manual id now)
      else []) c s = .ok (n, t) := h

theorem takeOrder_cases (h : takeOrder o now c s = .ok (n, t)) :
    (n = 1 ∧ ∃ x, s.orders.get? o.order.id = some x ∧ x.version = o.order.version ∧
      t.orders.get? o.order.id = some (setStatus .refunding (o.order.version + 1) now x)) ∨ n = 0 := by
  obtain ⟨hn, hrows⟩ := updateOrders_rows (f := fun _ x => setStatus .refunding (o.order.version + 1) now x)
    (fun _ _ => rfl) h
  rcases cas_get? s o.order.id o.order.status o.order.version with ⟨x, hx, hstatus, hversion, hcount⟩ | ⟨-, hcount⟩
  · refine .inl ⟨hn.trans hcount, x, hx, hversion, ?_⟩
    have hcas : orderCas o.order.id o.order.status o.order.version x = true := by
      unfold orderCas
      rw [show x.id = o.order.id from Table.get?_key hx, hstatus, hversion, beq_self_eq_true, beq_self_eq_true,
        beq_self_eq_true]
      rfl
    rw [Table.get?_map hrows (fun y => by split <;> rfl) o.order.id, hx, Option.map_some, if_pos hcas]
  · exact .inr (hn.trans hcount)

theorem moved_setStatus (x : ShopOrder) : moved o (setStatus .refunding (o.order.version + 1) now x) = true := by
  unfold moved
  rw [show (setStatus .refunding (o.order.version + 1) now x).version = o.order.version + 1 from rfl, beq_self_eq_true]
  rfl

theorem requestBatch_payment (hid : o.order.id = orderId)
    (h : batch (requestBatch input o amount split manual id now) 0 s = .ok (ns, t)) :
    paymentRead orderId t = paymentRead orderId s ∧
      ((ns.headD 0 = 1 ∧ paymentMinor orderId t = paymentMinor orderId s + amount) ∨
        (ns.headD 0 = 0 ∧ paymentMinor orderId t = paymentMinor orderId s)) := by
  rw [requestBatch_eq] at h
  obtain ⟨n1, s1, ns1, h1, hb, rfl⟩ := batch_cons_ok h
  obtain ⟨n2, s2, ns2, h2, h, -⟩ := batch_cons_ok hb
  obtain ⟨n3, s3, ns3, h3, h, -⟩ := batch_cons_ok h
  have hmove : Calm orderId (takeOrder o now) := setStatus_calm
    (fun _ x => orderCas o.order.id o.order.status o.order.version x) .refunding (o.order.version + 1) now
  have hevent : Calm orderId (recordRequestedEvent o) := (CloseStmt.events _).calm
  have htail : ∀ st ∈ requestTail split manual id now, Calm orderId st := requestTail_calm split manual id now
  constructor
  · rw [batch_keeps (fun st hst => (htail st hst).1) h, hevent.1 _ _ _ _ h3,
      insertRefund_paymentRead _ _ _ _ _ (recordRequested_ok h2), hmove.1 _ _ _ _ h1]
  · rw [batch_keeps (fun st hst => (htail st hst).2) h, hevent.2 _ _ _ _ h3,
      paymentMinor_append (insertRefund_rows (recordRequested_ok h2)).2, hmove.2 _ _ _ _ h1]
    rcases takeOrder_cases h1 with ⟨rfl, x, hx, -, hx1⟩ | rfl
    · rw [if_pos rfl, fromOrder_some hx1 (moved_setStatus x)]
      refine .inl ⟨rfl, congrArg _ ?_⟩
      rw [map_singleton, sum_singleton]
      exact requestedRow_share _ ((Table.get?_key hx).trans hid)
    · rw [if_neg (by decide)]
      exact .inr ⟨rfl, Int.add_zero _⟩

theorem recordRequested_runs (manual : Bool) (now : Time) {x : ShopOrder} (hx : s.orders.get? o.order.id = some x)
    (hmoved : moved o x = true) (hpos : 0 < input.amountMinor) (hamount : 0 < amount)
    (hnew : ∀ r ∈ s.refunds.rows, r.id ≠ id ∧ r.idempotencyKey ≠ input.idempotencyKey) :
    ∃ refunds, recordRequested input o amount manual id now 1 s = .ok (1, Db.refundsT.set s refunds) := by
  have hfound := fromOrder_some hx hmoved (requestedRow input o amount manual id now)
  have hopen : (requestedRow input o amount manual id now x).status ≠ .succeeded := by
    show (if manual then RefundStatus.processing else RefundStatus.pending) ≠ .succeeded
    cases manual <;> nofun
  have hvalid : Row.valid (requestedRow input o amount manual id now x) = true := by
    show (decide (0 < input.amountMinor) && decide (0 < amount)) = true
    rw [decide_eq_true hpos, decide_eq_true hamount]
    rfl
  have hapart : ∀ r ∈ s.refunds.rows, Row.clash r (requestedRow input o amount manual id now x) = false := by
    intro r hr
    obtain ⟨hid, hkey⟩ := hnew r hr
    show (r.id == id || r.idempotencyKey == input.idempotencyKey || (r.paymentAttemptId == some o.attempt.id &&
      r.paymentAttemptId.isSome && r.providerRefundId == none && r.providerRefundId.isSome)) = false
    rw [beq_false_of_ne hid, beq_false_of_ne hkey]
    cases r.providerRefundId <;> simp
  generalize requestedRow input o amount manual id now x = row at hfound hopen hvalid hapart
  obtain ⟨n, t, hinsert⟩ := (insert_one (T := Db.refundsT) (s := s) (g := fun _ => [row]) rfl 0).mpr ⟨hvalid, hapart⟩
  obtain ⟨-, refunds, -, rfl⟩ := insert_abort_ok hinsert
  have hquiet : batch (if row.status = .succeeded then promotionRefund row else []) 0 (Db.refundsT.set s refunds) =
      .ok ([], Db.refundsT.set s refunds) := by
    rw [if_neg hopen]
    rfl
  exact ⟨refunds, insertEach_one (fun r : Refund => if r.status = .succeeded then promotionRefund r else [])
    (g := fun s => if 1 = 1 then s.fromOrder o.order.id (moved o) (requestedRow input o amount manual id now) else [])
    ((if_pos rfl).trans hfound) hinsert hquiet 1⟩

theorem requestBatch_runs (split : Option PromotionSplit) (manual : Bool) (now : Time)
    (horder : s.orders.get? o.order.id = some o.order) (hstatus : o.order.status ≠ .refunding) (hpos : 0 < input.amountMinor) (hamount : 0 < amount)
    (hnew : ∀ r ∈ s.refunds.rows, r.id ≠ id ∧ r.idempotencyKey ≠ input.idempotencyKey)
    (hfree : VersionFree o.order.id (o.order.version + 1) s) :
    ∃ ns t, batch (requestBatch input o amount split manual id now) 0 s = .ok (1 :: ns, t) := by
  obtain ⟨n1, s1, h1⟩ := orderUpdate_runs .refunding now (k := o.order.id) (v := o.order.version + 1) (s := s)
    (p := fun _ x => orderCas o.order.id o.order.status o.order.version x)
    (q := fun x => x.status == o.order.status && x.version == o.order.version)
    (fun _ => rfl) (Nat.succ_pos _) ⟨nofun, nofun, nofun⟩ 0
  have h1 : takeOrder o now 0 s = .ok (n1, s1) := h1
  obtain ⟨-, -, hrefunds, hevents, -⟩ := updateOrders_effect h1 fun _ _ => rfl
  -- the order is hit
  obtain ⟨rfl, x, hx, -, hx1⟩ : n1 = 1 ∧ ∃ x, s.orders.get? o.order.id = some x ∧ x.version = o.order.version ∧
      s1.orders.get? o.order.id = some (setStatus .refunding (o.order.version + 1) now x) := by
    refine (takeOrder_cases h1).resolve_right fun hzero => ?_
    rcases cas_get? s o.order.id o.order.status o.order.version with ⟨-, -, -, -, hcount⟩ | ⟨hmiss, -⟩
    · have hn : n1 = _ := (updateOrders_rows (f := fun _ x => setStatus .refunding (o.order.version + 1) now x)
        (fun _ _ => rfl) h1).1
      rw [hn, hcount] at hzero
      cases hzero
    · have hself := hmiss o.order (Table.get?_mem horder)
      rw [orderCas_self] at hself
      cases hself
  obtain ⟨refunds, h2⟩ := recordRequested_runs manual now hx1 (moved_setStatus x) hpos hamount
    (by rw [hrefunds]; exact hnew)
  -- its event
  have hevent := fromOrder_some (s := Db.refundsT.set s1 refunds) hx1 (moved_setStatus (o := o) x) (requestedEvent o)
  obtain ⟨n3, s3, h3⟩ := (insert_one (T := Db.eventsT) (s := Db.refundsT.set s1 refunds)
    (g := fun s => s.fromOrder o.order.id (moved o) (requestedEvent o)) hevent 1).mpr ⟨decide_eq_true hstatus,
      fun ev hev => VersionFree.clash hfree (hevents ▸ hev) (Table.get?_key hx) rfl rfl⟩
  have h3 : recordRequestedEvent o 1 (Db.refundsT.set s1 refunds) = .ok (n3, s3) := h3
  obtain ⟨ns, t, htail⟩ := batch_total (requestTail_total split manual id now) n3 s3
  refine ⟨1 :: n3 :: ns, t, ?_⟩
  rw [requestBatch_eq]
  simp only [batch, h1, h2, h3, htail, Bind.bind, Except.bind]

theorem requestBatch_free (h : batch (requestBatch input o amount split manual id now) 0 s = .ok (ns, t))
    (hone : 1 ≤ ns.headD 0) : VersionFree o.order.id (o.order.version + 1) s := by
  rw [requestBatch_eq] at h
  obtain ⟨n1, s1, ns1, h1, hb, rfl⟩ := batch_cons_ok h
  obtain ⟨n2, s2, ns2, h2, hb, -⟩ := batch_cons_ok hb
  obtain ⟨n3, s3, ns3, h3, -, -⟩ := batch_cons_ok hb
  obtain ⟨-, x, hx, -, hx1⟩ := (takeOrder_cases h1).resolve_right (Nat.one_le_iff_ne_zero.mp hone)
  obtain ⟨-, -, -, hkept1, -⟩ := updateOrders_effect h1 fun _ _ => rfl
  obtain ⟨-, -, horders, hkept2, -⟩ := insertRefund_effect (recordRequested_ok h2)
  obtain ⟨-, events, hrows, -⟩ := insert_abort_ok h3
  rw [← horders] at hx1
  rw [fromOrder_some hx1 (moved_setStatus (o := o) x)] at hrows
  intro ev hev hof hversion
  have hev : ev ∈ s2.events.rows := by
    rw [hkept2, hkept1]
    exact hev
  have hclash := Table.distinct_append hrows hev
  have hclash : ((ev.orderId == x.id && ev.orderVersion == some (o.order.version + 1) && ev.orderVersion.isSome) ||
    (ev.id == none && ev.id.isSome)) = false := hclash
  rw [hof, hversion, show x.id = o.order.id from Table.get?_key hx, beq_self_eq_true, beq_self_eq_true] at hclash
  cases hclash

end Effects

theorem require_passed {p : Bool} {err : DomainError} :
    Prog.Reads (fun _ => p = true) (require p err : Call Site Unit) := by
  unfold require
  by_cases hp : p = true
  · rw [if_pos hp]
    exact hp
  · rw [if_neg hp]
    trivial

def PaymentWithin (orderId : Id) (limit : Int) (s t : Db) : Prop :=
  paymentRead orderId t = paymentRead orderId s ∧ paymentMinor orderId t ≤ limit

theorem PaidThrough.found (h : PaidThrough orderId paid a s) :
    ∃ o, refundableOrder s orderId = some o ∧ s.orders.get? orderId = some o.order ∧ o.order.paidMinor = paid ∧
      o.attempt = a := by
  obtain ⟨x, hx, hpaid⟩ := Option.map_eq_some_iff.mp h.order
  obtain ⟨c, hc⟩ := Option.isSome_iff_exists.mp h.channel
  refine ⟨⟨x, a, c⟩, ?_, hx, hpaid, rfl⟩
  unfold refundableOrder
  simp only [Option.bind_eq_bind, hx, h.attempt, hc, Option.bind_some]

theorem requestPaymentRefund_within {split : Option PromotionSplit} {o : RefundableOrder} (hid : o.order.id = orderId)
    (hcapped : paymentMinor orderId s ≤ o.attempt.amountMinor) :
    Prog.Leaves (fun _ t => PaymentWithin orderId o.attempt.amountMinor s t) (requestPaymentRefund input split o e) s := by
  have hstay : PaymentWithin orderId o.attempt.amountMinor s s := ⟨rfl, hcapped⟩
  unfold requestPaymentRefund
  refine Prog.Leaves.reads require_reads (fun _ _ => Prog.Leaves.query (Prog.Leaves.reads require_reads (fun _ _ => ?_)
    fun _ => hstay)) fun _ => hstay
  dsimp only
  split
  · exact hstay
  · refine Prog.Leaves.reads require_passed (fun _ hroom => Prog.Leaves.commit (fun _ _ => hstay) fun ns t hb => ?_)
      fun _ => hstay
    rw [and_eq_true, decide_eq_true_eq, hid] at hroom
    obtain ⟨hread, hpayment⟩ := requestBatch_payment hid hb
    have hwithin : PaymentWithin orderId o.attempt.amountMinor s t := by
      refine ⟨hread, ?_⟩
      rcases hpayment with ⟨-, hmore⟩ | ⟨-, hsame⟩
      · rw [hmore]
        exact Int.add_le_of_le_sub_left hroom.2
      · rw [hsame]
        exact hcapped
    exact Prog.Leaves.reads require_reads (fun _ _ => hwithin) fun _ => hwithin

theorem requestShopRefund_within (h : PaidThrough orderId paid a s) (horder : input.orderId = orderId) :
    Prog.Leaves (fun _ t => PaymentWithin orderId a.amountMinor s t) (requestShopRefund input e) s := by
  have hstay : PaymentWithin orderId a.amountMinor s s := ⟨rfl, h.capped⟩
  obtain ⟨o, hfound, hrow, -, rfl⟩ := h.found
  unfold requestShopRefund
  refine Prog.Leaves.reads (assertAgentRefundAmount_reads _ _) (fun _ _ => Prog.Leaves.reads require_reads (fun _ _ =>
    Prog.Leaves.query ?_) fun _ => hstay) fun _ => hstay
  split
  · exact Prog.Leaves.reads require_reads (fun _ _ => hstay) fun _ => hstay
  · refine Prog.Leaves.reads (promotionRefundSplit_reads _ _) (fun split _ => ?_) fun _ => hstay
    split
    · have hcalm : ∀ split, Prog.Only (Calm orderId) (refundAllocatedBalance input split e) :=
        refundAllocatedBalance_only_calm
      refine ⟨Prog.Only.leaves_kept (hcalm _) (fun _ hst => hst.1) s, ?_⟩
      rw [Prog.Only.leaves_kept (hcalm _) (fun _ hst => hst.2) s]
      exact h.capped
    · refine Prog.Leaves.query ?_
      rw [horder, hfound]
      exact requestPaymentRefund_within (Table.get?_key hrow) h.capped

end Request

/-! ## The request for all that is left -/

/-- A request for all that is left of an order that can be refunded, part of which falls to the payment. -/
structure AsksForRest (orderId : Id) (input : RefundRequest) (e : RefundEnv) (s : Db) : Prop where
  order : input.orderId = orderId
  positive : 1 ≤ input.amountMinor
  rest : (input.amountMinor : Int) = stillRefundable s orderId
  refundable : ∀ o ∈ s.orders.get? orderId, refundableStatus o.status = true
  fresh : ∀ r ∈ s.refunds.rows, r.id ≠ e.uuid ∧ r.idempotencyKey ≠ input.idempotencyKey
  byPayment : ∀ split, (promotionRefundSplit (ℓ := Site) orderId input.amountMinor).alone s = (.ok (some split), s) →
    ¬(split.allocated = true ∧ split.external = 0)

def ExhaustsPayment (orderId : Id) (payment : Minor) (input : RefundRequest) (e : RefundEnv) (s : Db) : Prop :=
  (∃ reply, ((requestShopRefund input e).alone s).1 = .ok reply ∧ reply.duplicate = false) ∧
    paymentMinor orderId ((requestShopRefund input e).alone s).2 = payment

section Rest

variable {orderId : Id} {input : RefundRequest} {e : RefundEnv} {paid : Minor} {a : PaymentAttempt} {s : Db}

section

variable (h : PaidThrough orderId paid a s)
include h

theorem PaidThrough.stillRefundable : stillRefundable s orderId = paid - liveMinor s orderId := by
  obtain ⟨x, hx, hpaid⟩ := Option.map_eq_some_iff.mp h.order
  unfold Gmshop.stillRefundable
  rw [hx, ← hpaid]
  rfl

theorem assertAgentRefundAmount_alone (hask : AsksForRest orderId input e s) :
    (assertAgentRefundAmount orderId input.amountMinor).alone s = (.ok (), s) := by
  obtain ⟨x, hx, hpaid⟩ := Option.map_eq_some_iff.mp h.order
  unfold assertAgentRefundAmount
  rw [alone_query]
  by_cases hagent : AgentOrder orderId s
  · have hlive := h.access hagent
    have hall : input.amountMinor = paid := by
      have hrest := hask.rest
      rw [h.stillRefundable, hlive] at hrest
      exact Int.ofNat_inj.mp (hrest.trans (Int.sub_zero _))
    unfold AgentOrder at hagent
    rw [if_pos hagent, hx, Option.map_some, hpaid]
    unfold require
    rw [Option.all_some, hall, if_pos (beq_self_eq_true _)]
    rfl
  · unfold AgentOrder at hagent
    rw [if_neg hagent]
    rfl

theorem requestRest_alone (hask : AsksForRest orderId input e s) :
    ∃ o split manual, s.orders.get? o.order.id = some o.order ∧ o.order.id = orderId ∧
      refundableStatus o.order.status = true ∧
      (requestShopRefund input e).alone s =
        if paymentMinor orderId s < a.amountMinor then (do
            let results ← commit (.requestShopRefund o.order.id e.uuid)
              (requestBatch input o (a.amountMinor - paymentMinor orderId s) split manual e.uuid e.now)
            require (1 ≤ results.headD 0) (orderVersionConflict "Order changed; refresh and retry")
            return { id := e.uuid, report := .status (if manual then .processing else .pending)
                     manualActionRequired := manual } : Call Site RefundReply).alone s
        else (.error (.thrown refundPaymentAmountExceeded), s) := by
  obtain ⟨o, hfound, hrow, -, rfl⟩ := h.found
  have hid : o.order.id = orderId := Table.get?_key hrow
  obtain ⟨split, hsplit⟩ := promotionRefundSplit_alone hrow hask.positive hask.rest.le
  have hpayment : (some split).filter (fun sp => sp.allocated && sp.external == 0) = none := by
    rw [Option.filter_some, if_neg]
    rw [and_eq_true, beq_iff_eq]
    exact hask.byPayment split hsplit
  have hnone : s.refunds.rows.find? (fun r => r.idempotencyKey == input.idempotencyKey) = none :=
    find?_eq_none.mpr fun r hr hkey => (hask.fresh r hr).2 (eq_of_beq hkey)
  have havailable : (o.order.paidMinor : Int) - ((reservedRefunds s o.order.id).map fun r => (r.amountMinor : Int)).sum =
      input.amountMinor := by
    rw [reserved_sum, hask.rest, hid]
    unfold Gmshop.stillRefundable
    rw [hrow]
    rfl
  refine ⟨o, some split, resolveRefundManual o.channel e.credentialAutomatic, by rw [hid]; exact hrow, hid,
    hask.refundable _ hrow, ?_⟩
  unfold requestShopRefund
  rw [hask.order, alone_bind (assertAgentRefundAmount_alone h hask),
    alone_require (bne_iff_ne.mpr (Nat.one_le_iff_ne_zero.mp hask.positive)), alone_query, hnone]
  dsimp only
  rw [alone_bind hsplit, hpayment]
  dsimp only
  rw [alone_query, hfound]
  dsimp only
  unfold requestPaymentRefund
  dsimp only
  rw [alone_require (hask.refundable _ hrow), alone_query, havailable, alone_require (decide_eq_true le_rfl)]
  have htaken : ((reservedRefunds s o.order.id).map fun r =>
      if r.paymentAttemptId.isNone then 0 else r.paymentAmountMinor).sum = paymentMinor orderId s := by
    rw [hid]
    rfl
  have hamount : refundPaymentAmount input (some split) o input.amountMinor
      (o.attempt.amountMinor - paymentMinor orderId s) e = .ok (o.attempt.amountMinor - paymentMinor orderId s) :=
    if_pos rfl
  rw [htaken, hamount]
  dsimp only
  have hcapped := h.capped
  by_cases hroom : paymentMinor orderId s < o.attempt.amountMinor
  · rw [if_pos hroom, alone_require]
    rw [and_eq_true, bne_iff_ne, decide_eq_true_eq]
    exact ⟨by omega, le_rfl⟩
  · have hzero : (o.attempt.amountMinor : Int) - paymentMinor orderId s = 0 := by omega
    rw [if_neg hroom, hzero]
    rfl

end

def NextVersionFree (orderId : Id) (s : Db) : Prop := ∀ o ∈ s.orders.get? orderId, VersionFree orderId (o.version + 1) s

theorem exhaustsPayment_iff (h : PaidThrough orderId paid a s) (hask : AsksForRest orderId input e s) :
    ExhaustsPayment orderId a.amountMinor input e s ↔
      paymentMinor orderId s < a.amountMinor ∧ NextVersionFree orderId s := by
  obtain ⟨o, split, manual, horder, rfl, hstatus, halone⟩ := requestRest_alone h hask
  have hnext : NextVersionFree o.order.id s ↔ VersionFree o.order.id (o.order.version + 1) s := by
    unfold NextVersionFree
    rw [horder]
    exact ⟨fun hfree => hfree _ rfl, fun hfree x hx => Option.some.inj hx ▸ hfree⟩
  unfold ExhaustsPayment
  rw [halone, hnext]
  by_cases hroom : paymentMinor o.order.id s < a.amountMinor
  · rw [if_pos hroom]
    constructor
    · rintro ⟨⟨reply, hreply, -⟩, -⟩
      refine ⟨hroom, ?_⟩
      obtain ⟨ns, t, hcommit, hrest⟩ := Prog.alone_bind_ok (Prod.ext hreply rfl)
      refine requestBatch_free (commit_alone_ok hcommit) ?_
      by_contra hone
      unfold require at hrest
      rw [if_neg fun h => hone (of_decide_eq_true h)] at hrest
      cases congrArg Prod.fst hrest
    · rintro ⟨-, hfree⟩
      have hopen : o.order.status ≠ .refunding := by
        intro heq
        rw [heq] at hstatus
        cases hstatus
      obtain ⟨ns, t, hbatch⟩ := requestBatch_runs split manual e.now horder hopen
        hask.positive (Int.sub_pos_of_lt hroom) hask.fresh hfree
      have hpayment := (requestBatch_payment rfl hbatch).2.resolve_right fun hzero => Nat.one_ne_zero hzero.1
      rw [Prog.alone_bind (Prog.commit_alone hbatch), alone_require (by exact decide_eq_true le_rfl)]
      refine ⟨⟨_, rfl, rfl⟩, ?_⟩
      show paymentMinor o.order.id t = _
      rw [hpayment.2]
      omega
  · rw [if_neg hroom]
    constructor
    · rintro ⟨⟨reply, hreply, -⟩, -⟩
      cases hreply
    · rintro ⟨hlt, -⟩
      exact absurd hlt hroom

/-! ## Runs -/

theorem no_access_of_accepted {reply : RefundReply} (h : PaidThrough orderId paid a s)
    (horder : input.orderId = orderId) (hpart : (input.amountMinor : Int) < stillRefundable s orderId)
    (haccepted : (requestShopRefund input e).alone s = (.ok reply, t)) : ¬AgentOrder orderId s := by
  intro hagent
  obtain ⟨x, hx, hpaid⟩ := Option.map_eq_some_iff.mp h.order
  unfold requestShopRefund at haccepted
  obtain ⟨_, u, hassert, -⟩ := alone_bind_ok haccepted
  unfold assertAgentRefundAmount at hassert
  unfold AgentOrder at hagent
  rw [horder, alone_query, if_pos hagent, hx, Option.map_some, hpaid, Option.all_some] at hassert
  unfold require at hassert
  by_cases hall : (paid == input.amountMinor) = true
  · rw [h.stillRefundable, eq_of_beq hall] at hpart
    omega
  · rw [if_neg hall] at hassert
    cases congrArg Prod.fst hassert

theorem PaidThrough.step (h : PaidThrough orderId paid a s) (hstep : RefundsOn orderId s t) :
    PaidThrough orderId paid a t := by
  cases hstep with
  | partialRefund input e reply horder hpart haccepted =>
    have hno := no_access_of_accepted h horder hpart haccepted
    have hwithin := requestShopRefund_within (e := e) h horder
    unfold Prog.Leaves at hwithin
    rw [haccepted] at hwithin
    obtain ⟨hread, hcapped⟩ := hwithin
    simp only [paymentRead, Prod.mk.injEq] at hread
    obtain ⟨hattempts, hchannels, hitems, hagents, horders⟩ := hread
    refine ⟨horders.trans h.order, ?_, ?_, hcapped, fun hagent => absurd ?_ hno⟩
    · unfold succeededAttempt
      rw [hattempts]
      exact h.attempt
    · rw [hchannels]
      exact h.channel
    · unfold AgentOrder at hagent ⊢
      rw [hitems, hagents] at hagent
      exact hagent
  | other hbetween =>
    exact ⟨hbetween.order.trans h.order, hbetween.attempt.trans h.attempt, hbetween.channel _ h.channel,
      hbetween.payment.trans h.capped, fun hagent => Nat.le_zero.mp (h.access (hbetween.access hagent) ▸ hbetween.live)⟩

end Rest

theorem Between.refl (orderId : Id) (s : Db) : Between orderId s s :=
  ⟨rfl, rfl, fun _ h => h, le_rfl, le_rfl, fun h => h⟩

theorem between_of_refunds {f : Refund → Refund} (hread : paymentRead orderId t = paymentRead orderId s)
    (hrows : t.refunds.rows = s.refunds.rows.map f)
    (hshare : ∀ r ∈ s.refunds.rows, paymentShare orderId (f r) ≤ paymentShare orderId r)
    (hweight : ∀ r ∈ s.refunds.rows, liveWeight orderId (f r) ≤ liveWeight orderId r) : Between orderId s t := by
  simp only [paymentRead, Prod.mk.injEq] at hread
  obtain ⟨hattempts, hchannels, hitems, hagents, horders⟩ := hread
  refine ⟨horders, ?_, fun id h => by rw [hchannels]; exact h, ?_, ?_, fun hagent => ?_⟩
  · unfold succeededAttempt
    rw [hattempts]
  · rw [paymentMinor_eq, paymentMinor_eq, hrows, map_map]
    exact sum_le_sum hshare
  · unfold liveMinor Table.sum
    rw [hrows, map_map]
    exact sum_le_sum hweight
  · unfold AgentOrder at hagent ⊢
    rw [hitems, hagents] at hagent
    exact hagent

section Finished

variable {orderId : Id} {status : RefundStatus} {fc : Option RefundFailure} {pid : Option ProviderRefundId} {now : Time}
  {r : Refund} {s : Db}

theorem paymentShare_nonneg (orderId : Id) (hr : r ∈ s.refunds.rows) : 0 ≤ paymentShare orderId r := by
  have hvalid : (decide (0 < r.amountMinor) && decide (0 < r.paymentAmountMinor)) = true := s.refunds.valid r hr
  rw [and_eq_true, decide_eq_true_eq, decide_eq_true_eq] at hvalid
  unfold paymentShare
  split
  · split
    · exact le_rfl
    · exact hvalid.2.le
  · exact le_rfl

theorem finishedRefund_share (hr : r ∈ s.refunds.rows) (hlive : r.status.live = true) :
    paymentShare orderId (finishedRefund status fc pid now r) ≤ paymentShare orderId r := by
  have hpos := paymentShare_nonneg orderId hr
  cases hnext : status.live with
  | true =>
    apply le_of_eq
    show (if r.orderId == orderId && status.live then _ else 0) = paymentShare orderId r
    unfold paymentShare
    rw [hnext, hlive]
    rfl
  | false =>
    show (if r.orderId == orderId && status.live then _ else 0) ≤ paymentShare orderId r
    rw [hnext, Bool.and_false]
    exact hpos

theorem finishedRefund_weight (hlive : r.status.live = true) :
    liveWeight orderId (finishedRefund status fc pid now r) ≤ liveWeight orderId r := by
  unfold liveWeight
  by_cases hof : r.orderId = orderId
  · rw [if_pos (show r.orderId = orderId ∧ r.status.live = true from ⟨hof, hlive⟩)]
    show (if r.orderId = orderId ∧ status.live = true then r.amountMinor else 0) ≤ r.amountMinor
    split
    · exact le_rfl
    · exact Nat.zero_le _
  · rw [if_neg fun h => hof h.1, if_neg fun h => hof h.1]

end Finished

theorem finalizeRefund_between {c : RefundContext} {status : RefundStatus} {fc : Option RefundFailure}
    {pid : Option ProviderRefundId} {now : Time}
    (hopen : ∀ r ∈ s.refunds.rows, finalizable c.refund.id n r = true → r.status = .processing) :
    Prog.Leaves (fun _ t => Between orderId s t) (finalizeRefund c status fc pid n now) s := by
  have hstay := Between.refl orderId s
  unfold finalizeRefund
  refine Prog.Leaves.query (Prog.Leaves.reads (fullRefundStatements_reads _ _ _ _) (fun close hclose =>
    Prog.Leaves.commit (fun _ _ => hstay) fun ns t hb => ?_) fun _ => hstay)
  show Between orderId s t
  obtain ⟨-, -, hrows, -, -, -, -⟩ := finalize_effect (fun st hst => (hclose st hst).quiet) hb
  refine between_of_refunds (batch_keeps (fun st hst => ?_) hb) hrows (fun r hr => ?_) fun r hr => ?_
  · unfold finalizeBatch at hst
    rcases mem_append.mp hst with hst | hst
    · refine each_four ?_ ?_ ?_ ?_ _ hst
      · exact updateRefunds_keeps (by constructor <;> exact fun _ _ => rfl) fun _ _ => rfl
      · exact updateOrders_paymentRead fun _ _ => ⟨rfl, rfl⟩
      · exact (CloseStmt.events _).calm.1
      · exact (CloseStmt.outbox _).calm.1
    · exact (hclose st hst).calm.1
  · by_cases hfinal : finalizable c.refund.id n r = true
    · rw [if_pos hfinal]
      exact finishedRefund_share hr (by rw [hopen r hr hfinal]; rfl)
    · rw [if_neg hfinal]
  · by_cases hfinal : finalizable c.refund.id n r = true
    · rw [if_pos hfinal]
      exact finishedRefund_weight (by rw [hopen r hr hfinal]; rfl)
    · rw [if_neg hfinal]

theorem not_allocated_of_no_hold {amount : Minor} {split : PromotionSplit}
    (hnone : ∀ x ∈ s.holds.rows, x.orderId = orderId → x.state ≠ .consumed)
    (h : (promotionRefundSplit (ℓ := Site) orderId amount).alone s = (.ok (some split), s)) :
    split.allocated = false := by
  have hhold : ∀ o, s.orders.get? orderId = some o →
      s.holds.rows.find? (fun x => x.orderId == o.id && x.state == .consumed) = none := by
    intro o ho
    refine find?_eq_none.mpr fun x hx hconsumed => ?_
    rw [and_eq_true, beq_iff_eq, beq_iff_eq] at hconsumed
    exact hnone x hx (hconsumed.1.trans (Table.get?_key ho)) hconsumed.2
  unfold promotionRefundSplit at h
  rw [alone_query] at h
  cases horder : s.orders.get? orderId with
  | none =>
    rw [show splitOrder s orderId = none from congrArg (Option.map _) horder] at h
    cases congrArg Prod.fst h
  | some o =>
    rw [show splitOrder s orderId = _ from congrArg (Option.map _) horder] at h
    dsimp only [Option.map_some] at h
    rw [alone_query, hhold o horder] at h
    cases hsplit : computeSplit _ (succeededRefunds s orderId) amount with
    | error err =>
      rw [hsplit] at h
      cases congrArg Prod.fst h
    | ok sp =>
      rw [hsplit] at h
      have hsp : sp = split := Option.some.inj (Except.ok.inj (congrArg Prod.fst h))
      unfold computeSplit at hsplit
      dsimp only at hsplit
      split at hsplit
      · cases hsplit
      · rw [← hsp, ← Except.ok.inj hsplit]
        rfl

/-- An order with `paid` paid through the payment `a` that has no refund yet. -/
structure PaidOrder (orderId : Id) (paid : Minor) (a : PaymentAttempt) (s : Db) : Prop where
  order : (s.orders.get? orderId).map (·.paidMinor) = some paid
  attempt : succeededAttempt s orderId = some a
  channel : (s.channels.get? a.channelId).isSome = true
  unrefunded : ∀ r ∈ s.refunds.rows, r.orderId ≠ orderId

theorem PaidOrder.paidThrough (h : PaidOrder orderId paid a s) : PaidThrough orderId paid a s := by
  refine ⟨h.order, h.attempt, h.channel, ?_, fun _ => ?_⟩
  · rw [paymentMinor_eq, sum_eq_zero]
    · exact Int.natCast_nonneg _
    · intro x hx
      obtain ⟨r, hr, rfl⟩ := mem_map.mp hx
      unfold paymentShare
      rw [beq_false_of_ne (h.unrefunded r hr)]
      rfl
  · unfold liveMinor Table.sum
    refine sum_eq_zero fun x hx => ?_
    obtain ⟨r, hr, rfl⟩ := mem_map.mp hx
    exact if_neg fun hlive => h.unrefunded r hr hlive.1

def convertedPayment : PaymentAttempt where
  id := 5
  orderId := some 10
  channelId := 3
  idempotencyKey := 1
  status := .succeeded
  amountMinor := 10
  currency := 1
  rateUnits := 1
  rateDecimals := 1
  exchangeRateDirection := .multiply

def convertedDb : Db where
  orders := ⟨[{ id := 10, status := .paid, version := 2, totalMinor := 100, paidMinor := 100 }], by decide, by decide⟩
  attempts := ⟨[convertedPayment], by decide, by decide⟩
  channels := ⟨[{ id := 3, provider := .cryptomus }], by decide, by decide⟩

def refundEnv (uuid : Id) (now : Time) : RefundEnv := ⟨uuid, now, fun _ => 2, false⟩

def partRequested (amountMinor : Minor) : Db :=
  ((requestShopRefund ⟨10, amountMinor, 1⟩ (refundEnv 50 7)).alone convertedDb).2

def partRefunded (amountMinor : Minor) : Db :=
  match loadRefund (partRequested amountMinor) 50 with
  | none => partRequested amountMinor
  | some c => ((finalizeRefund c .succeeded none none 0 8).alone (partRequested amountMinor)).2

theorem convertedDb_paid : PaidOrder 10 100 convertedPayment convertedDb :=
  ⟨by decide, by decide, by decide, fun r hr => by cases (show r ∈ [] from hr)⟩

theorem partRefunded_run
    (haccepted : ((requestShopRefund ⟨10, amountMinor, 1⟩ (refundEnv 50 7)).alone convertedDb).1 =
      .ok { id := 50, report := .status .processing, manualActionRequired := true })
    (hpart : (amountMinor : Int) < stillRefundable convertedDb 10)
    (hopen : ∀ r ∈ (partRequested amountMinor).refunds.rows, r.status = .processing) :
    Relation.ReflTransGen (RefundsOn 10) convertedDb (partRefunded amountMinor) := by
  refine .tail (.single (.partialRefund ⟨10, amountMinor, 1⟩ (refundEnv 50 7) _ rfl hpart (Prod.ext haccepted rfl))) ?_
  refine .other ?_
  show Between 10 (partRequested amountMinor) (partRefunded amountMinor)
  unfold partRefunded
  split
  · exact Between.refl 10 _
  · exact finalizeRefund_between fun r hr _ => hopen r hr

theorem partRefunded_asks {rest : Minor} (hpos : 1 ≤ rest)
    (hrest : (rest : Int) = stillRefundable (partRefunded amountMinor) 10)
    (hopen : ∀ o ∈ (partRefunded amountMinor).orders.get? 10, refundableStatus o.status = true)
    (hfresh : ∀ r ∈ (partRefunded amountMinor).refunds.rows, r.id ≠ 51 ∧ r.idempotencyKey ≠ 2)
    (hholds : (partRefunded amountMinor).holds.rows = []) :
    AsksForRest 10 ⟨10, rest, 2⟩ (refundEnv 51 9) (partRefunded amountMinor) := by
  refine ⟨rfl, hpos, hrest, hopen, hfresh, fun split h hall => ?_⟩
  have hnone := not_allocated_of_no_hold (by rw [hholds]; nofun) h
  rw [hnone] at hall
  cases hall.1

end Gmshop
