import GmshopEdge.Orders.Statements
import GmshopEdge.Fulfillment.System

/-!
# A paid order has a succeeded attempt

An order that a provider's event has paid has a succeeded payment attempt, the one a refund goes back
to. The batch of the event marks its attempt only where it is not `failed` or `cancelled` already, and
pays the order either way, so this holds as long as no success arrives for such an attempt
(`attemptOpen`).
-/

namespace Gmshop

open List Sql Stmt Prog Table Option

/-! ## The property -/

/-- A provider's event has paid the order: the event's batch leaves this row. -/
def paidByEvent (s : Db) (orderId : Id) : Bool :=
  s.events.exist fun ev => ev.orderId == orderId && ev.eventType == .paymentSucceeded

/-- Every order that a provider's event has paid has a succeeded attempt. -/
def PaidHaveAttempt (s : Db) : Prop :=
  ∀ ev ∈ s.events.rows, ev.eventType = .paymentSucceeded →
    ∃ a ∈ s.attempts.rows, a.orderId = some ev.orderId ∧ a.status = .succeeded

instance (s : Db) : Decidable (PaidHaveAttempt s) := by
  unfold PaidHaveAttempt
  infer_instance

/-- The condition on the batch of a succeeded event: its attempt has not ended otherwise. -/
def attemptOpen (x : Site) (s : Db) : Prop :=
  match x with
  | .orderPayment attemptId _ _ _ =>
    ∀ a ∈ s.attempts.get? attemptId, a.status ≠ .failed ∧ a.status ≠ .cancelled
  | _ => True

instance (x : Site) (s : Db) : Decidable (attemptOpen x s) := by
  casesm Site <;> dsimp only [attemptOpen] <;> infer_instance

theorem newestAttempt_kept (ys : List PaymentAttempt) (b : PaymentAttempt) : (ys.foldl (fun best a => match best with
      | none => some a
      | some b => if b.updatedAt < a.updatedAt ∨ (b.updatedAt = a.updatedAt ∧ b.id < a.id) then some a
        else some b) (some b)).isSome := by
  induction ys generalizing b with
  | nil => rfl
  | cons y ys ih =>
    simp only [foldl_cons]
    split
    · exact ih y
    · exact ih b

theorem newestAttempt_isSome {xs : List PaymentAttempt} (h : xs ≠ []) : (newestAttempt xs).isSome := by
  cases xs with
  | nil => exact absurd rfl h
  | cons x xs => exact newestAttempt_kept xs x

variable {s t u : Db} {st : Stmt Db} {money ordering : Prop} {context : PaymentContext} {order : ShopOrder}
  {channelId : Id}

theorem PaidHaveAttempt.found (h : PaidHaveAttempt s) {orderId : Id} (hp : paidByEvent s orderId = true) :
    (succeededAttempt s orderId).isSome := by
  obtain ⟨ev, hev, hevp⟩ := exist_iff.mp hp
  simp only [Bool.and_eq_true, beq_iff_eq] at hevp
  obtain ⟨a, ha, hao, has⟩ := h ev hev hevp.2
  refine newestAttempt_isSome (ne_nil_of_mem (mem_filter.mpr ⟨ha, ?_⟩))
  simp [hao, has, hevp.1]

/-! ## One step -/

def AttemptsKept (s t : Db) : Prop :=
  ∀ id a, s.attempts.get? id = some a → ∃ a', t.attempts.get? id = some a' ∧ AttemptMove a a'

theorem AttemptMove.refl (a : PaymentAttempt) : AttemptMove a a := ⟨rfl, rfl, fun h => h⟩

theorem AttemptMove.trans {a b c : PaymentAttempt} (h : AttemptMove a b) (h' : AttemptMove b c) : AttemptMove a c :=
  ⟨h'.id.trans h.id, h'.orderId.trans h.orderId, fun hs => h'.succeeded (h.succeeded hs)⟩

theorem AttemptsKept.refl (s : Db) : AttemptsKept s s := fun _ a ha => ⟨a, ha, .refl a⟩

theorem AttemptsKept.trans (h : AttemptsKept s t) (h' : AttemptsKept t u) : AttemptsKept s u := by
  intro id a ha
  obtain ⟨b, hb, hab⟩ := h id a ha
  obtain ⟨c, hc, hbc⟩ := h' id b hb
  exact ⟨c, hc, hab.trans hbc⟩

/-- A step that adds no `payment_succeeded` event. -/
structure NoPayment (s t : Db) : Prop where
  attempts : AttemptsKept s t
  events : ∀ ev ∈ t.events.rows, ev.eventType = .paymentSucceeded → ev ∈ s.events.rows

theorem NoPayment.refl (s : Db) : NoPayment s s := ⟨.refl s, fun _ h _ => h⟩

theorem NoPayment.trans (h : NoPayment s t) (h' : NoPayment t u) : NoPayment s u :=
  ⟨h.attempts.trans h'.attempts, fun ev hev ht => h.events ev (h'.events ev hev ht) ht⟩

theorem keeps_noPayment (h : Keeps (fun s => (s.attempts, s.events)) st) : Within NoPayment st := by
  intro c s n s' hs
  have hk := h c s n s' hs
  simp only [Prod.mk.injEq] at hk
  exact ⟨fun id a ha => ⟨a, by rw [hk.1]; exact ha, .refl a⟩, fun ev hev _ => by rw [hk.2] at hev; exact hev⟩

theorem attempts_mapped {g : PaymentAttempt → PaymentAttempt} (h : t.attempts.rows = s.attempts.rows.map g)
    (hg : ∀ a, AttemptMove a (g a)) : AttemptsKept s t := fun id a ha =>
  ⟨g a, by rw [get?_map h (fun r => (hg r).id), ha]; rfl, hg a⟩

theorem insertEvents_noPayment {c : OnConflict} {g : Db → List ShopOrderEvent}
    (hg : ∀ s, ∀ ev ∈ g s, ev.eventType.optional = true) :
    Within NoPayment (insert Db.eventsT c g) := by
  intro k s n s' h
  obtain ⟨-, t, ht, rfl⟩ := insert_ok h
  refine ⟨.refl _, fun ev hev hty => ?_⟩
  have hev' : ev ∈ t.rows := hev
  rw [ht] at hev'
  rcases mem_append.mp hev' with hev' | hev'
  · exact hev'
  · have := hg s ev ((admitted_sublist _ _ _).subset hev')
    rw [hty] at this
    cases this

theorem updateAttempts_noPayment {p : Db → PaymentAttempt → Bool}
    {f : Db → PaymentAttempt → PaymentAttempt} (hf : ∀ s a, (f s a).id = a.id)
    (hp : ∀ s a, p s a = true → AttemptMove a (f s a)) : Within NoPayment (updateAttempts p f) := by
  intro c s n s' h
  have hrows := (updateAttempts_rows hf h).2
  have hevents : s'.events = s.events :=
    Keeps.eq (g := Db.events)
      (updateAttempts_keeps (by constructor <;> exact fun _ _ => rfl) (fun _ _ => rfl) fun _ _ => rfl) h
  refine ⟨attempts_mapped hrows fun a => ?_, fun ev hev _ => by rw [hevents] at hev; exact hev⟩
  split
  · next hpa => exact hp s a hpa
  · exact .refl a

theorem AttemptStmt.noPayment (h : AttemptStmt st) : Within NoPayment st := by
  cases h with
  | status p f hf hp => exact updateAttempts_noPayment hf hp
  | row p f hf hs =>
    intro c s n s' h
    obtain ⟨-, t, ht, rfl⟩ := update_ok h
    refine ⟨attempts_mapped ht fun a => ?_, fun ev hev _ => hev⟩
    split
    · exact hf s a
    · exact .refl a
  | new g hg =>
    intro c s n s' h
    obtain ⟨-, t, ht, rfl⟩ := insert_ok h
    exact ⟨fun id a ha => ⟨a, get?_append ht ha, .refl a⟩, fun ev hev _ => hev⟩

theorem QuietStmt.noPayment (h : QuietStmt False ordering money st) : Within NoPayment st :=
  h.within (fun _ => keeps_noPayment)
    (fun _ h => keeps_noPayment (h.keeps (by constructor; constructor; all_goals exact fun _ _ => rfl)))
    (fun _ h => h.noPayment)
    (fun _ _ _ _ _ => keeps_noPayment (update_off rfl)) (fun _ _ _ => keeps_noPayment (insert_off rfl))
    (fun _ _ => insertEvents_noPayment) False.elim (fun _ _ => rfl) (fun _ _ => rfl) fun _ _ => rfl

theorem ShopStmt.noPayment (h : ShopStmt False ordering money st) : Within NoPayment st := by
  cases h with
  | quiet st h => exact h.noPayment
  | orders p f hf hv hs =>
    exact keeps_noPayment (updateOrders_keeps (by constructor <;> exact fun _ _ => rfl) fun _ _ => rfl)

/-! ## The system -/

/-- Every order that a provider's event has paid has a succeeded attempt; attempts stay where they
are, and a succeeded one stays succeeded. -/
def paidAttemptSpec : Spec Db Site Empty :=
  Spec.ofRel PaidHaveAttempt attemptOpen (fun _ _ => True) AttemptsKept (fun _ => trivial) .refl fun _ _ _ => .trans

theorem PaidHaveAttempt.step (h : PaidHaveAttempt s) (hst : NoPayment s t) : PaidHaveAttempt t := by
  intro ev hev hty
  obtain ⟨a, ha, hao, has⟩ := h ev (hst.events ev hev hty) hty
  obtain ⟨a', ha', hm⟩ := hst.attempts _ a (mem_get? ha)
  exact ⟨a', get?_mem ha', hm.orderId.trans hao, hm.succeeded has⟩

theorem noPayment_admits (hi : PaidHaveAttempt t) (h : NoPayment t u) : paidAttemptSpec.Admits ∅ ∅ t u :=
  Spec.admits_ofRel (hi.step h) trivial fun _ => h.attempts

theorem seen_attempt {pid : ProviderPaymentId} {m : Option MerchantOrderId}
    (h : paidAttemptSpec.Seen (fun s => loadPaymentContext s channelId pid m) (some context) t)
    (horder : context.order = some order) :
    ∃ a, t.attempts.get? context.attempt.id = some a ∧ a.orderId = some order.id := by
  obtain ⟨s, -, hr, hs⟩ := h
  simp only [loadPaymentContext, bind_eq_bind, bind_eq_some_iff] at hs
  obtain ⟨c, -, a, ha, hctx⟩ := hs
  cases hctx
  obtain ⟨o, ho, hoo⟩ := bind_eq_some_iff.mp horder
  obtain ⟨a', ha', hm⟩ := hr _ a (mem_get? (mem_of_find?_eq_some ha))
  exact ⟨a', ha', hm.orderId.trans (ho.trans (congrArg some (get?_key hoo).symm))⟩

theorem orderPayment_admits {event : PaymentEvent} {coupon : Option Id} {fulfillment : List (Stmt Db)}
    {e : PaymentEnv} {ns : List Nat} (hi : PaidHaveAttempt t)
    (hopen : ∀ a ∈ t.attempts.get? context.attempt.id, a.status ≠ .failed ∧ a.status ≠ .cancelled)
    (hcontext : paidAttemptSpec.Seen (fun s =>
      loadPaymentContext s channelId event.providerPaymentId event.merchantOrderId) (some context) t)
    (horder : context.order = some order) (hful : Fulfills paidAttemptSpec order.id e fulfillment t)
    (hb : batch (orderPaymentBatch channelId context.attempt.id event order coupon fulfillment e.now)
      0 t = .ok (ns, u)) : paidAttemptSpec.Admits ∅ ∅ t u := by
  obtain ⟨a, ha, hao⟩ := seen_attempt hcontext horder
  rw [orderPaymentBatch_eq] at hb
  obtain ⟨ns1, t4, ns2, hb1, hb2, -⟩ := batch_append_ok hb
  simp only [orderPaymentBatch, cons_append, take_succ_cons, take_zero] at hb1
  obtain ⟨n1, t1, n2, t2, n3, t3, n4, t4', h1, h2, h3, h4, rfl⟩ := batch_four_ok hb1
  have r1 : NoPayment t t1 := (QuietStmt.plain _ (.receipts _) : QuietStmt False False False _).noPayment _ _ _ _ h1
  -- the attempt of the order is succeeded after the second statement
  have hsucceeded : ∃ a', t2.attempts.get? context.attempt.id = some a' ∧
      a'.orderId = some order.id ∧ a'.status = .succeeded := by
    obtain ⟨-, tt, -, rfl⟩ := insert_ok h1
    obtain ⟨-, hrows⟩ := updateAttempts_rows (fun _ _ => by rfl) h2
    have hget := get?_map hrows (fun r => by split <;> rfl) context.attempt.id
    have hst := hopen a ha
    have hid : a.id = context.attempt.id := get?_key ha
    rw [show (Db.receiptsT.set t tt).attempts = t.attempts from rfl, ha, map_some] at hget
    refine ⟨_, hget, ?_, ?_⟩
    · split <;> exact hao
    · cases hs : a.status with
      | created => simp [hid]
      | pending => simp [hid]
      | succeeded => simp [hid, hs]
      | expired => simp [hid]
      | failed => exact absurd hs hst.1
      | cancelled => exact absurd hs hst.2
  have r2 : NoPayment t1 t2 :=
    updateAttempts_noPayment (fun _ _ => by rfl) (fun _ _ _ => ⟨by rfl, by rfl, fun _ => by rfl⟩)
      _ _ _ _ h2
  have r3 : NoPayment t2 t3 :=
    keeps_noPayment (updateOrders_keeps (by constructor <;> exact fun _ _ => rfl) fun _ _ => rfl)
      _ _ _ _ h3
  have hi3 : PaidHaveAttempt t3 := hi.step (r1.trans (r2.trans r3))
  have r5 : NoPayment t4' u := batch_within .refl (fun _ _ _ => .trans)
    (fun st hst => (afterPaymentEvent_stmts hful st hst : QuietStmt False False False st).noPayment) hb2
  -- the event is the order's own
  obtain ⟨ev, te, hev, hte, -, rfl⟩ := insertRequired_ok h4
  have hevo : ev.orderId = order.id := by
    obtain ⟨o, ho, rfl⟩ := mem_map.mp (mem_of_mem_head? hev)
    have := (mem_filter.mp ho).2
    simp only [Bool.and_eq_true, beq_iff_eq] at this
    exact this.1
  have hi4 : PaidHaveAttempt (Db.eventsT.set t3 te) := by
    intro ev' hev' hty
    have hmem : ev' ∈ te.rows := hev'
    rw [hte] at hmem
    rcases mem_append.mp hmem with hmem | hmem
    · exact hi3 ev' hmem hty
    · rw [mem_singleton.mp hmem, hevo]
      obtain ⟨a', ha', hao', has'⟩ := hsucceeded
      obtain ⟨a'', ha'', hm⟩ := r3.attempts _ a' ha'
      exact ⟨a'', get?_mem ha'', hm.orderId.trans hao', hm.succeeded has'⟩
  have hkept : AttemptsKept t u :=
    (r1.trans (r2.trans r3)).attempts.trans (r5.attempts)
  exact Spec.admits_ofRel (hi4.step r5) trivial fun _ => hkept

theorem paidAttempt_admits : AdmitsShop paidAttemptSpec fun _ => True := by
  intro x sts t ns u hb hi hc hbatch
  by_cases hx : x.isPayment
  · cases hb with
    | orderPayment channelId event context order coupon fulfillment e hcontext horder hcoupon hful =>
      exact orderPayment_admits hi hc hcontext horder hful hbatch
    | _ => exact hx.elim
  · refine noPayment_admits hi (batch_within .refl (fun _ _ _ => .trans) (fun st hst => ?_) hbatch)
    have hst := hb.stmts st hst
    rw [eq_false hx] at hst
    exact hst.noPayment

/-- In every run whose succeeded events meet an open attempt, a refund request finds the attempt of
every order that an event has paid. -/
theorem paid_order_has_attempt {s : Db} (h0 : PaidHaveAttempt s) {w : World Db Site DomainError Unit}
    (hrun : Runs ShopCall.code attemptOpen ⟨s, []⟩ w) {orderId : Id}
    (hpaid : paidByEvent w.db orderId = true) :
    ∃ a, succeededAttempt w.db orderId = some a := by
  have hgood := (Runs.sound paidAttemptSpec
    (fun c s _ => (ShopCall.bare paidAttempt_admits c (by cases c <;> trivial) s).ok) hrun
    (good_idle _ h0)).1
  exact isSome_iff_exists.mp (hgood.1.found hpaid)

/-! ## Two runs -/

def awaitedPaymentDb : Db where
  orders := .of [{ id := 1, status := .pendingPayment, version := 1, totalMinor := 100 }]
  attempts := .of [{ id := 1, orderId := some 1, channelId := 1, idempotencyKey := 1
                     providerPaymentId := some (.provider 1), status := .pending, amountMinor := 100 }]
  channels := .of [{ id := 1, provider := .stripe }]

def providerEvent (eventId : Nat) (type : PaymentEventType) (now : Time) : ShopCall :=
  .webhook 1 (.ok { providerEventId := .provider eventId, providerPaymentId := .provider 1
                    type := type, amountMinor := some 100, payloadDigest := eventId })
    ⟨now, fun _ => ⟨1, 1, 1, 1⟩⟩

def paidRun : World Db Site DomainError Unit :=
  World.exec ShopCall.code attemptOpen ⟨awaitedPaymentDb, []⟩
    (oneByOne [providerEvent 1 .pending 5, providerEvent 2 .succeeded 6] 10)

def failedFirstRun : World Db Site DomainError Unit :=
  World.exec ShopCall.code anySite ⟨awaitedPaymentDb, []⟩
    (oneByOne [providerEvent 1 .failed 5, providerEvent 2 .succeeded 6] 10)

theorem paid_order_has_attempt_paidRun :
    paidByEvent paidRun.db 1 = true ∧ ∃ a, succeededAttempt paidRun.db 1 = some a :=
  have hpaid : paidByEvent paidRun.db 1 = true := by decide
  ⟨hpaid, paid_order_has_attempt (by decide) (World.exec_runs ShopCall.code attemptOpen _ _) hpaid⟩

/-- A success after a failure pays the order and leaves it without a succeeded attempt. -/
theorem not_paid_order_has_attempt : ¬∀ (s : Db), PaidHaveAttempt s → ∀ w : World Db Site DomainError Unit,
      Runs ShopCall.code anySite ⟨s, []⟩ w → ∀ orderId, paidByEvent w.db orderId = true →
        ∃ a, succeededAttempt w.db orderId = some a := by
  intro h
  obtain ⟨a, ha⟩ := h awaitedPaymentDb (by decide) failedFirstRun
    (World.exec_runs ShopCall.code anySite _ _) 1 (by decide)
  have hnone : succeededAttempt failedFirstRun.db 1 = none := by decide
  rw [hnone] at ha
  cases ha

end Gmshop
