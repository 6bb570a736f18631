import GmshopEdge.Lib.Outcome
import GmshopEdge.Orders.Statements
import GmshopEdge.Refunds.System
import GmshopEdge.Lib.Checked

/-!
# Received payments leave a receipt

A succeeded event that finds its payment leaves a receipt on the attempt, unless the processing only throws: where
the order or the top-up cannot take the payment and its funding was not released, or what it sold cannot be
fulfilled. `accepted` is the condition that none of this is so when the processing reads; `Received` then holds
when it has ended.

A processing is split at the payment that it finds (`processShopPaymentEvent_eq`), so that its answer can tell which
that was.
-/

namespace Gmshop

open List Sql Stmt Prog Except Bare

/-! ## The payment that an event is about -/

def lookUpPayment (channelId : Id) (event : PaymentEvent) : Call Site (ReplayReceipt ⊕ Option PaymentContext) := do
  let duplicate ← Prog.query fun s => findPaymentReplayReceipt s channelId event.providerEventId
  match duplicate with
  | some receipt => return .inl receipt
  | none =>
    let context? ← Prog.query fun s =>
      loadPaymentContext s channelId event.providerPaymentId event.merchantOrderId
    return .inr context?

/-- The rest of `processShopPaymentEvent`, for the payment that was found. -/
def settlePayment (channelId : Id) (event : PaymentEvent) (e : PaymentEnv) (context : PaymentContext) :
    Call Site PaymentReply := do
  liftExcept (validateEventMoney context event)
  let released ← releasedFunding event context
  if released then
    let _ ← runPaymentEventBatch (.paymentEvent context.attempt.id) channelId event
      (rejectBatch channelId context.attempt.id event .paymentReconciliationRequired e.now)
    return { duplicate := false, status := .reconciliationRequired }
  else settleEvent channelId event context e

def settleFound (channelId : Id) (event : PaymentEvent) (e : PaymentEnv) :
    ReplayReceipt ⊕ Option PaymentContext → Call Site PaymentReply
  | .inl receipt => liftExcept (presentPaymentReplayReceipt receipt event)
  | .inr none => Prog.throw ⟨"payment_attempt_not_found", 404, "Payment attempt not found"⟩
  | .inr (some context) => settlePayment channelId event e context

/-! ## The system -/

structure Processed where
  channelId : Id
  event : PaymentEvent
  found : ReplayReceipt ⊕ Option PaymentContext
  reply : Except DomainError PaymentReply

/-- Where a call acts or reads; the processing of an event with what it has found. -/
inductive ReceivedSite where
  | shop (x : Option Site)
  | lookUp (channelId : Id) (event : PaymentEvent) (e : PaymentEnv) (x : Option Site)
  | settling (channelId : Id) (event : PaymentEvent) (e : PaymentEnv) (found : ReplayReceipt ⊕ Option PaymentContext)
      (x : Option Site)

/-- `processShopPaymentEvent`, with what it has found. -/
def processed (channelId : Id) (event : PaymentEvent) (e : PaymentEnv) : Prog Db ReceivedSite DomainError Processed := do
  let found ← (lookUpPayment channelId event).relabel (.lookUp channelId event e)
  let reply ← (settleFound channelId event e found).caught.relabel (.settling channelId event e found)
  .done ⟨channelId, event, found, reply⟩

inductive ReceivedCall where
  | shop (c : ShopCall)
  | refund (c : RefundCall)
  | process (channelId : Id) (event : PaymentEvent) (e : PaymentEnv)

def ReceivedCall.code : ReceivedCall → Prog Db ReceivedSite DomainError (Option Processed)
  | .shop c => c.code.relabel .shop >>= fun _ => .done none
  | .refund c => c.code.relabel .shop >>= fun _ => .done none
  | .process channelId event e => processed channelId event e >>= fun p => .done (some p)

/-! ## The property -/

def Received (channelId : Id) (event : PaymentEvent) (attemptId : Id) (s : Db) : Prop :=
  ∃ r ∈ s.receipts.rows, r.channelId = channelId ∧ r.externalId = event.providerEventId ∧ r.paymentAttemptId = attemptId

/-- A success of a payment that is stored, with its amount and currency, and the processing was not told to
retry. -/
def Processed.complete (p : Processed) : Prop :=
  p.event.type = .succeeded ∧ p.reply ≠ .error (walletConflict "Balance changed; retry") ∧ match p.found with
    | .inl _ => True
    | .inr none => False
    | .inr (some context) => validateEventMoney context p.event = .ok ()

def Processed.traced (p : Processed) (s : Db) : Prop :=
  match p.found with
  | .inl receipt => receipt ∈ s.receipts.rows ∧ receipt.channelId = p.channelId ∧
      receipt.externalId = p.event.providerEventId
  | .inr none => True
  | .inr (some context) => Received p.channelId p.event context.attempt.id s

/-! ## The condition -/

/-- The order or the top-up takes the payment, or its funding was released. -/
def acceptsPayment (e : PaymentEnv) (context : PaymentContext) (s : Db) : Prop :=
  context.attempt.status = .succeeded ∨ match context.topup, context.order with
    | some topup, _ => topup.status = .pending ∧ topup.amountMinor ≠ 0 ∧
        ∃ user ∈ s.users.get? topup.userId, user.enabled = true ∧ user.balanceMinor + topup.amountMinor ≤ balanceLimit
    | none, some order =>
      if order.status = .pendingPayment ∨ order.status = .expired then
        (orderFulfillmentStatements order.id (orderItemsForFulfillment s order.id) e.ids e.now).toBool = true
      else fundingReleased s order.id = true
    | none, none => False

/-- A success finds its payment open, and its identifier was not used for another attempt. -/
def accepted (x : ReceivedSite) (s : Db) : Prop :=
  match x with
  | .lookUp channelId event e _ =>
    ∀ context ∈ loadPaymentContext s channelId event.providerPaymentId event.merchantOrderId,
      event.type = .succeeded → validateEventMoney context event = .ok () → acceptsPayment e context s
  | .settling channelId event e (.inr (some context)) none =>
    event.type = .succeeded → validateEventMoney context event = .ok () →
      acceptsPayment e context s ∧ ∀ r ∈ s.receipts.rows, r.channelId = channelId →
        r.externalId = event.providerEventId → r.paymentAttemptId = context.attempt.id
  | _ => True

instance (e : PaymentEnv) (context : PaymentContext) (s : Db) : Decidable (acceptsPayment e context s) := by
  unfold acceptsPayment
  rcases context with ⟨attempt, order, topup⟩
  cases topup <;> cases order <;> dsimp only <;> infer_instance

instance (x : ReceivedSite) (s : Db) : Decidable (accepted x s) := by
  unfold accepted
  split <;> infer_instance

/-! ## Receipts stay -/

def ReceiptsKept (s t : Db) : Prop := ∀ r ∈ s.receipts.rows, r ∈ t.receipts.rows

theorem ReceiptsKept.refl (s : Db) : ReceiptsKept s s := fun _ h => h

theorem ReceiptsKept.trans (s t u : Db) (h : ReceiptsKept s t) (h' : ReceiptsKept t u) : ReceiptsKept s u :=
  fun r hr => h' r (h r hr)

variable {st : Stmt Db} {money : Prop} {s t : Db} {attemptId : Id} {x : Site} {status : ReceiptStatus}
  {rest : List (Stmt Db)} {topup : WalletTopup} {order : ShopOrder}

theorem keeps_receiptsKept (h : Keeps Db.receipts st) : Within ReceiptsKept st := by
  intro c s n t hs r hr
  rw [h c s n t hs]
  exact hr

theorem updateAttempts_receiptsKept {p : Db → PaymentAttempt → Bool} {f : Db → PaymentAttempt → PaymentAttempt} :
    Within ReceiptsKept (updateAttempts p f) :=
  keeps_receiptsKept (updateAttempts_keeps (by constructor <;> exact fun _ _ => rfl) (fun _ _ => rfl) fun _ _ => rfl)

theorem updateOrders_receiptsKept {p : Db → ShopOrder → Bool} {f : Db → ShopOrder → ShopOrder} :
    Within ReceiptsKept (updateOrders p f) :=
  keeps_receiptsKept (updateOrders_keeps (by constructor <;> exact fun _ _ => rfl) fun _ _ => rfl)

theorem insertReceipts_receiptsKept (g : Db → List ReplayReceipt) :
    Within ReceiptsKept (insert Db.receiptsT .abort g) := by
  intro c s n t h r hr
  obtain ⟨-, table, hrows, rfl⟩ := insert_abort_ok h
  show r ∈ table.rows
  rw [hrows]
  exact mem_append_left _ hr

theorem PlainStmt.receiptsKept (h : PlainStmt money st) : Within ReceiptsKept st := by
  cases h with
  | receipts g => exact insertReceipts_receiptsKept g
  | guard p m => exact keeps_receiptsKept abortWhen_keeps
  | topups p f => exact keeps_receiptsKept (update_off rfl)
  | fulfill orderId items st h => exact keeps_receiptsKept (h.keeps (by constructor <;> exact fun _ _ => rfl))
  | outbox g => exact keeps_receiptsKept (insert_off rfl)
  | users h p f => exact keeps_receiptsKept (update_off rfl)
  | wallet h g => exact keeps_receiptsKept (insert_off rfl)
  | walletOn h g => exact keeps_receiptsKept (onChanges_within fun _ => insert_off rfl)
  | rewardEntries h g => exact keeps_receiptsKept (insert_off rfl)
  | holds h g => exact keeps_receiptsKept (insert_off rfl)
  | releaseSale orderId => exact keeps_receiptsKept (update_off rfl)
  | reserveSale componentId itemId quantity => exact keeps_receiptsKept (update_off rfl)
  | assets g => exact keeps_receiptsKept (insert_off rfl)
  | rewards p f =>
    exact keeps_receiptsKept (updateRewards_keeps (fun _ _ => rfl) (fun _ _ => rfl) fun _ _ => rfl)

theorem AttemptStmt.receiptsKept (h : AttemptStmt st) : Within ReceiptsKept st :=
  h.within (fun _ => keeps_receiptsKept) (fun _ _ => updateAttempts_receiptsKept) fun _ _ => rfl

theorem ShopStmt.receiptsKept {paying ordering : Prop} (h : ShopStmt paying ordering money st) :
    Within ReceiptsKept st := by
  cases h with
  | orders p f hf hv hs => exact updateOrders_receiptsKept
  | quiet st h =>
    exact h.within (fun _ => keeps_receiptsKept) (fun _ h => h.receiptsKept) (fun _ h => h.receiptsKept)
      (fun _ _ _ _ _ => keeps_receiptsKept (update_off rfl)) (fun _ _ _ => keeps_receiptsKept (insert_off rfl))
      (fun _ _ _ => keeps_receiptsKept (insert_off rfl))
      (fun _ _ => keeps_receiptsKept (insertRequired_off rfl)) (fun _ _ => rfl) (fun _ _ => rfl) fun _ _ => rfl

theorem RefundStmt.keepsReceipts (h : RefundStmt st) : Keeps Db.receipts st :=
  h.keeps (fun _ h => h.keeps (by constructor <;> exact fun _ _ => rfl))
    (by constructor <;> exact fun _ _ => rfl) (fun _ _ => rfl) (fun _ _ => rfl) fun _ _ => rfl

theorem batch_receiptsKept {sts : List (Stmt Db)} (h : ∀ st ∈ sts, Within ReceiptsKept st) {c : Nat}
    {ns : List Nat} (hb : batch sts c s = .ok (ns, t)) : ReceiptsKept s t :=
  batch_within .refl .trans h hb

/-! ## The calls -/

def receivedSpec : Spec Db ReceivedSite Empty :=
  .ofRel (fun _ => True) accepted (fun _ _ => True) ReceiptsKept (fun _ => trivial) .refl .trans

theorem received_admits (h : ReceiptsKept s t) : receivedSpec.Admits ∅ ∅ s t :=
  Spec.admits_ofRel trivial trivial fun _ => h

theorem received_admitsShop (g : Option Site → ReceivedSite) : AdmitsShop (receivedSpec.comap g) fun _ => True := by
  intro x sts t ns u h _ _ hb
  exact Spec.admits_comap.mpr (received_admits (batch_receiptsKept (fun st hst => (h.stmts st hst).receiptsKept) hb))

theorem received_refund (c : RefundCall) (s : Db) : Bare (receivedSpec.comap ReceivedSite.shop) c.code s :=
  c.only.bare .refl .trans (fun _ hst => keeps_receiptsKept hst.keepsReceipts)
    (fun _ _ _ h => Spec.admits_comap.mpr (received_admits h)) s

def EndsReceived {α : Type} (channelId : Id) (event : PaymentEvent) (attemptId : Id)
    (r : Except (Failure DomainError) α) (s : Db) : Prop :=
  match r with
  | .ok _ => Received channelId event attemptId s
  | .error (.thrown err) => err = walletConflict "Balance changed; retry" ∨ Received channelId event attemptId s
  | .error _ => True

section Settle

variable {channelId : Id} {event : PaymentEvent} {e : PaymentEnv} {context : PaymentContext} {s : Db}

abbrev Settles {α : Type} (channelId : Id) (event : PaymentEvent) (e : PaymentEnv) (context : PaymentContext)
    (Q : Except (Failure DomainError) α → Db → Prop) (p : Call Site α) (s : Db) : Prop :=
  Ends receivedSpec (ReceivedSite.settling channelId event e (.inr (some context))) Q p s

theorem liftExcept_ends {α : Type} {r : Except DomainError α} (h : Received channelId event attemptId s) :
    Settles channelId event e context (EndsReceived channelId event attemptId) (liftExcept r : Call Site α) s := by
  cases r with
  | ok a => exact h
  | error err => exact Or.inr h

section

variable (hsucc : event.type = .succeeded) (hmoney : validateEventMoney context event = .ok ()) (hrest : ∀ st ∈ rest, Within ReceiptsKept st)
include hsucc hmoney hrest

theorem runPaymentEventBatch_ends :
    Settles channelId event e context (fun r t => EndsReceived channelId event context.attempt.id r t ∧
        ∀ err, r ≠ .error (.thrown err))
      (runPaymentEventBatch x channelId event (paymentEventStatement channelId context.attempt.id event status :: rest))
      s := by
  unfold runPaymentEventBatch
  refine Ends.tryCatch (M := fun r t => EndsReceived channelId event context.attempt.id r t ∧
    ∀ err, r ≠ .error (.thrown err)) ?_ (fun _ _ h => h) (fun _ h => h) fun err t herr => ?_
  · refine Ends.bind (M := fun r t => EndsReceived channelId event context.attempt.id r t ∧
      ∀ err, r ≠ .error (.thrown err)) (Ends.commit fun t _ _ _ => ⟨fun a => ⟨trivial, nofun⟩, fun ns u hb => ?_⟩)
      (fun ns t h => ⟨h.1, nofun⟩) fun err t h => ?_
    · refine ⟨received_admits (batch_receiptsKept (fun st hst => ?_) hb), ?_, nofun⟩
      · rcases mem_cons.mp hst with rfl | hst
        · exact insertReceipts_receiptsKept _
        · exact hrest st hst
      · obtain ⟨n, t1, ms, hins, hb, -⟩ := batch_cons_ok hb
        obtain ⟨-, table, hrows, rfl⟩ := insert_abort_ok hins
        refine ⟨⟨channelId, context.attempt.id, event.providerEventId, event.type, event.payloadDigest, status⟩,
          batch_receiptsKept hrest hb _ ?_, rfl, rfl, rfl⟩
        show _ ∈ table.rows
        rw [hrows]
        exact mem_append_right _ (mem_singleton_self _)
    · refine ⟨?_, fun err' heq => h.2 err' (congrArg error (error.inj heq))⟩
      cases err with
      | thrown e' => exact absurd rfl (h.2 e')
      | aborted a => trivial
      | killed => trivial
  · -- the batch has aborted
    refine Ends.query fun u _ _ hc => ?_
    cases hfind : findPaymentReplayReceipt u channelId event.providerEventId with
    | none =>
      cases err with
      | thrown e' => exact absurd rfl (herr.2 e')
      | aborted a => exact ⟨trivial, nofun⟩
      | killed => exact ⟨trivial, nofun⟩
    | some receipt =>
      have hkey := find?_some hfind
      rw [Bool.and_eq_true, beq_iff_eq, beq_iff_eq] at hkey
      have hmem := mem_of_find?_eq_some hfind
      exact ⟨⟨receipt, hmem, hkey.1, hkey.2, (hc hsucc hmoney).2 receipt hmem hkey.1 hkey.2⟩, nofun⟩

theorem recordPaymentEvent_ends {reply : List Nat → Except DomainError PaymentReply} :
    Settles channelId event e context (EndsReceived channelId event context.attempt.id)
      (recordPaymentEvent x channelId event
        (paymentEventStatement channelId context.attempt.id event status :: rest) reply) s := by
  unfold recordPaymentEvent
  refine Ends.bind (runPaymentEventBatch_ends hsucc hmoney hrest) (fun result t h => ?_) fun err t h => ?_
  · cases result with
    | inl receipt => exact liftExcept_ends h.1
    | inr results => exact liftExcept_ends h.1
  · cases err with
    | thrown e' => exact absurd rfl (h.2 e')
    | aborted a => trivial
    | killed => trivial

end

def EndsRetry {α : Type} (r : Except (Failure DomainError) α) : Prop :=
  ∀ err, r = .error (.thrown err) → err = walletConflict "Balance changed; retry"

section

variable (hsucc : event.type = .succeeded) (hmoney : validateEventMoney context event = .ok ()) (htopup : context.topup = some topup) (hopen : context.attempt.status ≠ .succeeded)
include hsucc hmoney htopup hopen

theorem mutateWallet_ends {input : WalletMutation}
    (hinput : input.userId = topup.userId ∧ input.direction = .credit ∧
      input.amountMinor = topup.amountMinor) (hamount : topup.amountMinor ≠ 0) :
    Settles channelId event e context (fun r _ => EndsRetry r) (mutateWallet input) s := by
  have haccepts : ∀ t, accepted (.settling channelId event e (.inr (some context)) none) t →
      ∃ user, t.users.get? input.userId = some user ∧ user.enabled = true ∧
        user.balanceMinor + input.amountMinor ≤ balanceLimit := by
    intro t hc
    have haccepts := (hc hsucc hmoney).1.resolve_left hopen
    rw [htopup] at haccepts
    obtain ⟨-, -, user, huser, hrest⟩ := haccepts
    rw [hinput.1, hinput.2.2]
    exact ⟨user, huser, hrest⟩
  have honce : ∀ s, Settles channelId event e context (fun r _ => EndsRetry r) (mutateWalletOnce input) s := by
    intro s
    unfold mutateWalletOnce
    refine Ends.query fun t _ _ hc => ?_
    obtain ⟨user, huser, henabled, hlimit⟩ := haccepts t hc
    rw [huser, Option.filter_some, if_pos henabled]
    dsimp only
    rw [hinput.2.1, if_neg (fun h => nomatch h.1), if_pos rfl, if_neg (Int.not_lt.mpr hlimit)]
    refine Ends.tryCatch (Q := fun r _ => EndsRetry r) (M := fun r _ => EndsRetry r ∧ ∀ err, r ≠ .error (.thrown err)) ?_ (fun _ _ h => h.1)
      (fun _ h => h.1) fun err t herr => Ends.query fun u _ _ _ => ?_
    · refine Ends.bind (M := fun r _ => ∀ err, r ≠ .error (.thrown err)) (Ends.commit fun t _ _ _ =>
        ⟨fun a => nofun, fun ns u hb => ⟨received_admits (batch_receiptsKept (fun st hst => ?_) hb), nofun⟩⟩)
        (fun ns t _ => ⟨nofun, nofun⟩) fun err t h => ?_
      · exact each_two (keeps_receiptsKept (update_off rfl))
          (keeps_receiptsKept (onChanges_within fun _ => insert_off rfl)) _ hst
      · cases err with
        | thrown e' => exact absurd rfl (h e')
        | aborted a => exact ⟨nofun, nofun⟩
        | killed => exact ⟨nofun, nofun⟩
    · split
      · exact fun _ => nofun
      · cases err with
        | thrown e' => exact absurd rfl (herr.2 e')
        | aborted a => exact fun _ => nofun
        | killed => exact fun _ => nofun
  have hrounds : ∀ n s, Settles channelId event e context (fun r _ => EndsRetry r) (mutateWalletRounds input n) s := by
    intro n
    induction n with
    | zero =>
      intro s err herr
      exact (Failure.thrown.inj (error.inj herr)).symm
    | succ n ih =>
      intro s
      refine Ends.bind (honce s) (fun reply? t _ => ?_) fun err t h => ?_
      · cases reply? with
        | some reply => exact fun _ => nofun
        | none => exact ih t
      · exact fun err' heq => h err' (congrArg error (error.inj heq))
  unfold mutateWallet
  rw [if_neg (hinput.2.2 ▸ hamount)]
  refine Ends.query fun t _ _ _ => ?_
  split
  · exact fun _ => nofun
  · exact hrounds 4 t

theorem payTopup_ends (haccepts : acceptsPayment e context s) :
    Settles channelId event e context (EndsReceived channelId event context.attempt.id)
      (payTopup channelId context.attempt.id event topup e) s := by
  have haccepts := haccepts.resolve_left hopen
  rw [htopup] at haccepts
  unfold payTopup
  rw [if_neg (not_not.mpr haccepts.1)]
  refine Ends.bind (mutateWallet_ends hsucc hmoney htopup hopen ⟨rfl, rfl, rfl⟩ haccepts.2.1)
    (fun _ t _ => recordPaymentEvent_ends hsucc hmoney fun st hst => ?_) fun err t h => ?_
  · exact each_two updateAttempts_receiptsKept (keeps_receiptsKept (update_off rfl)) _ hst
  · cases err with
    | thrown e' => exact Or.inl (h e' rfl)
    | aborted a => trivial
    | killed => trivial

end

theorem orderPaymentBatch_receiptsKept {coupon : Option Id} {fulfillment : List (Stmt Db)}
    (hful : orderFulfillmentStatements order.id (orderItemsForFulfillment t order.id) e.ids e.now = .ok fulfillment) :
    ∀ st ∈ orderPaymentBatch channelId attemptId event order coupon fulfillment e.now, Within ReceiptsKept st := by
  intro st hst
  rw [orderPaymentBatch_eq] at hst
  rcases mem_append.mp hst with hst | hst
  · exact each_four (insertReceipts_receiptsKept _) updateAttempts_receiptsKept
      updateOrders_receiptsKept (keeps_receiptsKept (insertRequired_off rfl)) _ hst
  · have hfulfills : Fulfills (receivedSpec.comap ReceivedSite.shop) order.id e fulfillment t :=
      ⟨_, Spec.Seen.here _ trivial, hful⟩
    have hquiet : QuietStmt True True True st := afterPaymentEvent_stmts hfulfills st hst
    exact (ShopStmt.quiet st hquiet).receiptsKept

section

variable (hsucc : event.type = .succeeded) (hmoney : validateEventMoney context event = .ok ())
include hsucc hmoney

theorem payOrder_ends (htopup : context.topup = none) (horder : context.order = some order)
    (hopen : context.attempt.status ≠ .succeeded)
    (hstatus : order.status = .pendingPayment ∨ order.status = .expired) :
    Settles channelId event e context (EndsReceived channelId event context.attempt.id)
      (payOrder channelId context.attempt.id event order e) s := by
  unfold payOrder
  rw [if_neg (not_not.mpr hstatus)]
  have hrest : ∀ (coupon : Option (Id × Bool)) s, Settles channelId event e context (EndsReceived channelId event context.attempt.id)
      (if coupon.any (fun c => !c.2) then recordPaymentEvent (.paymentEvent context.attempt.id) channelId event
          (rejectBatch channelId context.attempt.id event .couponReclaimRequired e.now)
          fun _ => .ok { duplicate := false, status := .reconciliationRequired }
      else do
        let items ← Prog.query fun s => orderItemsForFulfillment s order.id
        let fulfillment ← liftExcept (orderFulfillmentStatements order.id items e.ids e.now)
        recordPaymentEvent (.orderPayment context.attempt.id order.id order.status order.version) channelId event
          (orderPaymentBatch channelId context.attempt.id event order (coupon.map (·.1)) fulfillment e.now)
          fun results =>
            if (results[2]?).getD 0 < 1 then .error (orderVersionConflict "Order changed; retry event")
            else .ok { duplicate := false, status := .succeeded } : Call Site PaymentReply) s := by
    intro coupon s
    split
    · refine recordPaymentEvent_ends hsucc hmoney fun st hst => ?_
      rw [mem_singleton.mp hst]
      exact keeps_receiptsKept (update_off rfl)
    · refine Ends.query fun t _ _ hc => ?_
      have haccepts := (hc hsucc hmoney).1.resolve_left hopen
      rw [htopup, horder] at haccepts
      dsimp only at haccepts
      rw [if_pos hstatus] at haccepts
      cases hful : orderFulfillmentStatements order.id (orderItemsForFulfillment t order.id) e.ids e.now with
      | error err =>
        rw [hful] at haccepts
        cases haccepts
      | ok fulfillment =>
        have hbatch : ∀ st ∈ orderPaymentBatch channelId context.attempt.id event order (coupon.map (·.1)) fulfillment
            e.now, Within ReceiptsKept st := orderPaymentBatch_receiptsKept hful
        exact recordPaymentEvent_ends hsucc hmoney fun st hst => hbatch st (mem_cons_of_mem _ hst)
  unfold releasedCoupon
  split
  · exact Ends.query fun t _ _ _ => hrest _ t
  · exact hrest none s

theorem settleEvent_ends (haccepts : acceptsPayment e context s)
    (hfunding : ∀ order, context.order = some order → fundingReleased s order.id = false) :
    Settles channelId event e context (EndsReceived channelId event context.attempt.id)
      (settleEvent channelId event context e) s := by
  unfold settleEvent
  dsimp only
  by_cases hopen : context.attempt.status = .succeeded
  · rw [if_pos hopen]
    exact recordPaymentEvent_ends hsucc hmoney fun _ hst => absurd hst not_mem_nil
  rw [if_neg hopen, hsucc]
  dsimp only
  cases htopup : context.topup with
  | some topup => exact payTopup_ends hsucc hmoney htopup hopen haccepts
  | none =>
    have haccepts := haccepts.resolve_left hopen
    rw [htopup] at haccepts
    cases horder : context.order with
    | none =>
      rw [horder] at haccepts
      exact haccepts.elim
    | some order =>
      rw [horder] at haccepts
      dsimp only at haccepts
      refine payOrder_ends hsucc hmoney htopup horder hopen ?_
      by_contra hstatus
      rw [if_neg hstatus, hfunding order horder] at haccepts
      cases haccepts

theorem settlePayment_ends (haccepts : acceptsPayment e context s) :
    Settles channelId event e context (EndsReceived channelId event context.attempt.id)
      (settlePayment channelId event e context) s := by
  have hrejected : ∀ t, Settles channelId event e context (EndsReceived channelId event context.attempt.id)
      (runPaymentEventBatch (.paymentEvent context.attempt.id) channelId event
          (rejectBatch channelId context.attempt.id event .paymentReconciliationRequired e.now) >>= fun _ =>
        (.done { duplicate := false, status := .reconciliationRequired } : Call Site PaymentReply)) t := by
    intro t
    refine Ends.bind (runPaymentEventBatch_ends hsucc hmoney fun st hst => ?_) (fun _ _ h => h.1) fun err t h => ?_
    · rw [mem_singleton.mp hst]
      exact keeps_receiptsKept (update_off rfl)
    · cases err with
      | thrown e' => exact absurd rfl (h.2 e')
      | aborted a => trivial
      | killed => trivial
  unfold settlePayment releasedFunding
  rw [hmoney, hsucc]
  cases horder : context.order with
  | none => exact settleEvent_ends hsucc hmoney haccepts fun order h => by rw [horder] at h; cases h
  | some order =>
    refine Ends.query fun t _ _ hc => ?_
    split
    · exact hrejected t
    · next hfunding =>
      refine settleEvent_ends hsucc hmoney (hc hsucc hmoney).1 fun order' h => ?_
      rw [horder] at h
      rw [← Option.some.inj h]
      exact Bool.eq_false_iff.mpr hfunding

end

end Settle

section

variable (channelId : Id) (event : PaymentEvent) (e : PaymentEnv)
include channelId event e

theorem settlePayment_bare {context : PaymentContext} {g : Option Site → ReceivedSite}
    (hload : loadPaymentContext s channelId event.providerPaymentId event.merchantOrderId = some context) :
    Bare (receivedSpec.comap g) (settlePayment channelId event e context) s := by
  refine liftExcept_bind fun _ _ => ?_
  have hseen : (receivedSpec.comap g).Seen (fun s =>
      loadPaymentContext s channelId event.providerPaymentId event.merchantOrderId) (some context) s :=
    ⟨s, trivial, ReceiptsKept.refl s, hload⟩
  have hrest : ∀ released t, (receivedSpec.comap g).rely ∅ s t → Bare (receivedSpec.comap g)
      (if released = true then do
        let _ ← runPaymentEventBatch (.paymentEvent context.attempt.id) channelId event
          (rejectBatch channelId context.attempt.id event .paymentReconciliationRequired e.now)
        return { duplicate := false, status := .reconciliationRequired }
      else settleEvent channelId event context e : Call Site PaymentReply) t := by
    intro released t ht
    split
    · refine bind (tryCatch (((received_admitsShop g).commit fun _ _ => .reject _ _ _ _ _).bind
        fun _ _ _ => done _) fun err u _ => ?_) fun _ _ _ => done _
      refine query fun v _ _ => ?_
      split
      · exact done _
      · exact fail _
    · exact settleEvent_bare (received_admitsShop g) (hseen.later _ ht)
  unfold releasedFunding
  split
  · exact query fun t ht _ => hrest _ t ht
  · exact hrest false s (Spec.rely_refl _ _ _)

theorem lookUpPayment_ends (s : Db) :
    Ends receivedSpec (ReceivedSite.lookUp channelId event e) (fun r t => ∀ found, r = .ok found →
        (∀ receipt, found = .inl receipt → receipt ∈ t.receipts.rows ∧ receipt.channelId = channelId ∧
          receipt.externalId = event.providerEventId) ∧
        ∀ context, found = .inr (some context) →
          loadPaymentContext t channelId event.providerPaymentId event.merchantOrderId = some context ∧
            (event.type = .succeeded → validateEventMoney context event = .ok () → acceptsPayment e context t))
      (lookUpPayment channelId event) s := by
  refine Ends.query fun t _ _ _ => ?_
  cases hfind : findPaymentReplayReceipt t channelId event.providerEventId with
  | some receipt =>
    have hkey := find?_some hfind
    rw [Bool.and_eq_true, beq_iff_eq, beq_iff_eq] at hkey
    intro found hfound
    obtain rfl := ok.inj hfound
    refine ⟨fun r hr => ?_, fun _ h => nomatch h⟩
    obtain rfl := Sum.inl.inj hr
    exact ⟨mem_of_find?_eq_some hfind, hkey⟩
  | none =>
    refine Ends.query fun u _ _ hc => ?_
    intro found hfound
    obtain rfl := ok.inj hfound
    refine ⟨(fun _ h => nomatch h), fun context hcontext => ?_⟩
    have hload := Sum.inr.inj hcontext
    exact ⟨hload, hc context hload⟩

theorem processed_answers (s : Db) :
    Answers receivedSpec (fun p t => p.complete → p.traced t) (processed channelId event e) s := by
  refine Answers.bind (lookUpPayment_ends channelId event e s).answers fun found t _ hfound => ?_
  obtain ⟨hreceipt, haccepts⟩ := hfound
  -- the answer tells how it ended
  refine Answers.bind (M := fun reply u => (Processed.mk channelId event found reply).complete →
    (Processed.mk channelId event found reply).traced u) (Ends.answers ?_) fun reply u _ h => Answers.done h
  rcases found with receipt | _ | context
  · have hleft := hreceipt receipt rfl
    have hends : Ends receivedSpec (ReceivedSite.settling channelId event e (.inl receipt))
        (fun _ u => receipt ∈ u.receipts.rows) (settleFound channelId event e (.inl receipt)) t := by
      show Ends _ _ _ (liftExcept (presentPaymentReplayReceipt receipt event)) t
      cases presentPaymentReplayReceipt receipt event with
      | ok reply => exact hleft.1
      | error err => exact hleft.1
    exact hends.caught (fun _ _ h _ => ⟨h, hleft.2⟩) fun _ _ h _ => ⟨h, hleft.2⟩
  · intro reply hreply hcomplete
    exact hcomplete.2.2.elim
  · by_cases hmatch : event.type = .succeeded ∧ validateEventMoney context event = .ok ()
    · refine (settlePayment_ends hmatch.1 hmatch.2 ((haccepts context rfl).2 hmatch.1 hmatch.2)).caught
        (fun _ _ h _ => h) fun err u h hcomplete => h.resolve_left fun heq => ?_
      exact hcomplete.2.1 (congrArg error heq)
    · refine (settlePayment_bare channelId event e (haccepts context rfl).1).ends.caught (fun _ _ _ hcomplete => ?_)
        fun _ _ _ hcomplete => ?_
      · exact absurd ⟨hcomplete.1, hcomplete.2.2⟩ hmatch
      · exact absurd ⟨hcomplete.1, hcomplete.2.2⟩ hmatch

end

theorem receivedCall_answers (c : ReceivedCall) (s : Db) :
    Answers receivedSpec (fun p? t => ∀ p, p? = some p → p.complete → p.traced t) c.code s := by
  cases c with
  | shop c =>
    have hbare : Bare (receivedSpec.comap ReceivedSite.shop) c.code s :=
      ShopCall.bare (received_admitsShop _) c (by cases c <;> trivial) s
    exact Answers.bind (M := fun _ _ => True) (Ends.answers (hbare.ends.mono fun _ _ _ _ _ => trivial))
      fun _ _ _ _ => Answers.done fun _ h => nomatch h
  | refund c =>
    exact Answers.bind (M := fun _ _ => True) (Ends.answers ((received_refund c s).ends.mono fun _ _ _ _ _ => trivial))
      fun _ _ _ _ => Answers.done fun _ h => nomatch h
  | process channelId event e =>
    refine Answers.bind (processed_answers channelId event e s) fun p t _ h => Answers.done fun p' hp => ?_
    rw [← Option.some.inj hp]
    exact h

/-! ## Runs -/

theorem Processed.traced_later {p : Processed} (h : ReceiptsKept s t) (hs : p.traced s) : p.traced t := by
  unfold Processed.traced at hs ⊢
  split at hs
  · exact ⟨h _ hs.1, hs.2⟩
  · trivial
  · obtain ⟨r, hr, hkey⟩ := hs
    exact ⟨r, h r hr, hkey⟩

/-- Where every success finds its payment open, a processing that has ended has a receipt of its event on the
attempt that the event is about, whatever the others do. -/
theorem received_payments_traced {s : Db} {w : World Db ReceivedSite DomainError (Option Processed)}
    (h : Runs ReceivedCall.code accepted ⟨s, []⟩ w) {p : Processed} (hp : .done (some p) ∈ w.calls)
    (hcomplete : p.complete) : p.traced w.db := by
  have hanswers := Runs.answers (S := receivedSpec) (fun p? s t hr hQ p hp hc => Processed.traced_later hr (hQ p hp hc))
    (fun c t _ => receivedCall_answers c t) trivial h
  exact hanswers.2 (some p) hp p rfl hcomplete

def twoPaymentsDb : Db where
  orders := .ok [{ id := 1, status := .pendingPayment, version := 1, totalMinor := 100 }]
  attempts := .ok [{ id := 1, orderId := some 1, channelId := 1, idempotencyKey := 1
                     providerPaymentId := some (.provider 1), status := .pending, amountMinor := 100 },
    { id := 2, orderId := some 1, channelId := 1, idempotencyKey := 2
      providerPaymentId := some (.provider 2), status := .pending, amountMinor := 100 }]
  channels := .ok [{ id := 1, provider := .stripe }]

def attemptSucceeded (attempt : Nat) (now : Time) : ReceivedCall :=
  .process 1 { providerEventId := .provider attempt, providerPaymentId := .provider attempt, type := .succeeded
               amountMinor := some 100, payloadDigest := attempt } ⟨now, fun _ => ⟨1, 1, 1, 1⟩⟩

instance (p : Processed) : Decidable p.complete := by
  unfold Processed.complete
  rcases p with ⟨channelId, event, receipt | _ | context, reply⟩ <;> dsimp only <;> infer_instance

instance (channelId : Id) (event : PaymentEvent) (attemptId : Id) (s : Db) :
    Decidable (Received channelId event attemptId s) := by
  unfold Received
  infer_instance

/-- The first success pays the order. -/
theorem received_payments_traced_paid : ∃ (w : World Db ReceivedSite DomainError (Option Processed)) (p : Processed),
    Runs ReceivedCall.code accepted ⟨twoPaymentsDb, []⟩ w ∧ .done (some p) ∈ w.calls ∧ p.complete ∧
      p.reply = .ok { duplicate := false, status := .succeeded } ∧ p.traced w.db := by
  obtain ⟨w, hw⟩ : ∃ w, w = World.exec ReceivedCall.code accepted ⟨twoPaymentsDb, []⟩
      (oneByOne [attemptSucceeded 1 5] 12) := ⟨_, rfl⟩
  have hruns : Runs ReceivedCall.code accepted ⟨twoPaymentsDb, []⟩ w := by
    rw [hw]
    exact World.exec_runs _ _ _ _
  have hanswer : ∃ p, w.calls[0]? = some (.done (some p)) ∧ p.complete ∧
      p.reply = .ok { duplicate := false, status := .succeeded } := by
    rw [hw]
    exact ⟨_, rfl, by decide, rfl⟩
  obtain ⟨p, hp, hcomplete, hreply⟩ := hanswer
  have hmem := mem_of_getElem? hp
  exact ⟨w, p, hruns, hmem, hcomplete, hreply, received_payments_traced hruns hmem hcomplete⟩

/-- The success of the second attempt is refused, and nothing is left of it. -/
theorem received_payment_forgotten : ∃ (w : World Db ReceivedSite DomainError (Option Processed)) (p : Processed)
    (context : PaymentContext), Runs ReceivedCall.code anySite ⟨twoPaymentsDb, []⟩ w ∧ .done (some p) ∈ w.calls ∧
      p.complete ∧ p.found = .inr (some context) ∧
      (∀ r ∈ w.db.receipts.rows, r.paymentAttemptId ≠ context.attempt.id) ∧
      (w.db.attempts.get? context.attempt.id).map (fun a => (a.status, a.failureCode)) = some (.pending, none) := by
  obtain ⟨w, hw⟩ : ∃ w, w = World.exec ReceivedCall.code anySite ⟨twoPaymentsDb, []⟩
      (oneByOne [attemptSucceeded 1 5, attemptSucceeded 2 6] 12) := ⟨_, rfl⟩
  have hruns : Runs ReceivedCall.code anySite ⟨twoPaymentsDb, []⟩ w := by
    rw [hw]
    exact World.exec_runs _ _ _ _
  have hanswer : ∃ p context, w.calls[1]? = some (.done (some p)) ∧ p.complete ∧ p.found = .inr (some context) ∧
      (∀ r ∈ w.db.receipts.rows, r.paymentAttemptId ≠ context.attempt.id) ∧
      (w.db.attempts.get? context.attempt.id).map (fun a => (a.status, a.failureCode)) = some (.pending, none) := by
    rw [hw]
    exact ⟨_, _, rfl, by decide, rfl, by decide, by decide⟩
  obtain ⟨p, context, hp, hrest⟩ := hanswer
  exact ⟨w, p, context, hruns, mem_of_getElem? hp, hrest⟩

end Gmshop
