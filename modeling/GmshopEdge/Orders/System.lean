import GmshopEdge.Orders.Checkout
import GmshopEdge.Payments.Attempts
import GmshopEdge.Promotions.Settlement

/-!
# The shop's calls side by side

The calls that make, pay, expire and cancel orders and that move wallets, as one system, and the
batches they commit (`ShopBatch`), each with what the call had read when it got there.
`ShopCall.bare` turns a property of these batches into one of the calls: a system that admits every
one of them has only calls in order.
-/

namespace Gmshop

open Sql Stmt Prog Table Bare

/-! ## The calls -/

inductive ShopCall where
  | checkout (c : Checkout)
  | createPayment (input : CreatePaymentInput) (e : CreatePaymentEnv)
  | webhook (channelId : Id) (parsed : Except DomainError PaymentEvent) (e : PaymentEnv)
  | reconcile (attempt : PaymentAttempt) (providerPaymentId : ProviderPaymentId)
      (answer : Except DomainError PaymentQuery) (e : PaymentEnv)
  | completeFree (orderId : Id) (balanceUserId : Option Id) (e : PaymentEnv)
  | completeWallet (orderId userId : Id) (currency : Nat) (e : PaymentEnv)
  | expire (now : Time) (limit : Nat)
  | transition (orderId : Id) (version : Nat) (toStatus : ShopOrderStatus) (now : Time)
  | reserveBalance (orderId userId : Id) (now : Time)
  | cancelUnstarted (orderId : Id) (now : Time)
  | adjustWallet (userId : Id) (direction : WalletDirection) (amountMinor : Minor) (key : Nat)
  | settleRewards (now : Time)

/-- `adjustCustomerWallet`: the admin's entry, under a key of its own kind. -/
def adjustment (userId : Id) (direction : WalletDirection) (amountMinor : Minor) (key : Nat) : WalletMutation :=
  { userId := userId, direction := direction, amountMinor := amountMinor, sourceType := .adjustment
    sourceId := userId, idempotencyKey := .other key }

def ShopCall.code : ShopCall → Call Site Unit
  | .checkout c => (createMultiStoreOrder c).void
  | .createPayment input e => (createShopPayment input e).void
  | .webhook channelId parsed e => (handleShopPaymentWebhook channelId parsed e).void
  | .reconcile attempt paymentId answer e => (reconcilePaymentAttempt attempt paymentId answer e).void
  | .completeFree orderId userId e => (completeFreeStoreOrder orderId userId e).void
  | .completeWallet orderId userId currency e => (completeWalletStoreOrder orderId userId currency e).void
  | .expire now limit => (expireStoreOrders now limit).void
  | .transition orderId version toStatus now => (transitionShopOrder orderId version toStatus now).void
  | .reserveBalance orderId userId now => (reserveOrderBalance orderId userId now).void
  | .cancelUnstarted orderId now => (cancelUnstartedBalancePayment orderId now).void
  | .adjustWallet userId direction amount key => (mutateWallet (adjustment userId direction amount key)).void
  | .settleRewards now => (settlePromotionRewards now).void

/-- The calls of a system whose admin moves orders only to the statuses in `A`. -/
def ShopCall.within (A : ShopOrderStatus → Prop) : ShopCall → Prop
  | .transition _ _ toStatus _ => A toStatus
  | _ => True

/-! ## The batches -/

section Batches

variable {τ : Type} (S : Spec Db Site τ) (A : ShopOrderStatus → Prop)

def Fulfills (orderId : Id) (e : PaymentEnv) (fulfillment : List (Stmt Db)) (t : Db) : Prop :=
  ∃ items, S.Seen (fun s => orderItemsForFulfillment s orderId) items t ∧
    orderFulfillmentStatements orderId items e.ids e.now = .ok fulfillment

/-- What `payOrder` knows of the coupon of its order: it was read after the order. -/
def CouponSeen (order : ShopOrder) (coupon : Option (Id × Bool)) (t : Db) : Prop :=
  (order.status = .pendingPayment ∧ coupon = none) ∨ (order.status = .expired ∧ ∃ s, S.inv s ∧ S.rely ∅ s t ∧
      S.Seen (fun r => r.orders.get? order.id) (some order) s ∧
      loadReleasedCouponUse s order.id = coupon)

inductive ShopBatch : Site → List (Stmt Db) → Db → Prop
  | receipt {t : Db} (channelId attemptId : Id) (event : PaymentEvent) :
      ShopBatch (.paymentEvent attemptId) [paymentEventStatement channelId attemptId event .processed] t
  | reject {t : Db} (channelId attemptId : Id) (event : PaymentEvent) (code : AttemptFailure) (now : Time) :
      ShopBatch (.paymentEvent attemptId) (rejectBatch channelId attemptId event code now) t
  | failed {t : Db} (channelId : Id) (attempt : PaymentAttempt) (event : PaymentEvent) (now : Time) :
      ShopBatch (.failedPayment attempt.id attempt.walletTopupId) (failedPaymentBatch channelId attempt event now) t
  | topup {t : Db} (channelId attemptId : Id) (event : PaymentEvent) (topup : WalletTopup) (now : Time) :
      ShopBatch (.topupPaid channelId topup.id event.providerEventId)
        [paymentEventStatement channelId attemptId event .processed,
          updateAttempts (fun _ a => a.id == attemptId &&
              (a.status == .created || a.status == .pending))
            (fun _ a => { a with status := .succeeded, updatedAt := now, failureCode := none }),
          update Db.topupsT (fun _ t => t.id == topup.id && t.status == .pending)
            (fun _ t => { t with status := .paid })] t
  | orderPayment {t : Db} (channelId : Id) (event : PaymentEvent) (context : PaymentContext) (order : ShopOrder)
      (coupon : Option (Id × Bool)) (fulfillment : List (Stmt Db)) (e : PaymentEnv)
      (hcontext : S.Seen (fun s =>
        loadPaymentContext s channelId event.providerPaymentId event.merchantOrderId) (some context) t)
      (horder : context.order = some order) (hcoupon : CouponSeen S order coupon t)
      (hfulfills : Fulfills S order.id e fulfillment t) :
      ShopBatch (.orderPayment context.attempt.id order.id order.status order.version)
        (orderPaymentBatch channelId context.attempt.id event order (coupon.map (·.1)) fulfillment
          e.now) t
  | reconcile {t : Db} (attemptId : Id) (now : Time) :
      ShopBatch (.reconcilePayment attemptId)
        [update Db.attemptsT (fun _ a => a.id == attemptId &&
            (a.status == .pending || a.status == .expired))
          (fun _ a => { a with updatedAt := now })] t
  | freeOrder {t : Db} (order : ShopOrder) (fulfillment : List (Stmt Db)) (e : PaymentEnv)
      (horder : S.Seen (fun s => s.orders.get? order.id) (some order) t)
      (hfulfills : Fulfills S order.id e fulfillment t) :
      ShopBatch (.completeFreeStoreOrder order.id order.version)
        (freeOrderBatch order.id order.version fulfillment e.now) t
  | walletOrder {t : Db} (w : WalletOrder) (user : User) (fulfillment : List (Stmt Db)) (e : PaymentEnv)
      (horder : S.Seen (fun s => walletPaymentOrder s w.order.id w.userId) (some w) t)
      (huser : w.user = some user) (hfulfills : Fulfills S w.order.id e fulfillment t) :
      ShopBatch (.completeWalletStoreOrder w.order.id w.order.version)
        (walletOrderBatch w.order user.id user.balanceMinor user.balanceVersion fulfillment e.now) t
  | expire {t : Db} (orderId : Id) (version : Nat) (now : Time) :
      ShopBatch (.expireStoreOrder orderId version) (expireBatch orderId version now) t
  | transition {t : Db} (order : ShopOrder) (toStatus : ShopOrderStatus) (now : Time) (hA : A toStatus)
      (horder : S.Seen (fun s => s.orders.get? order.id) (some order) t)
      (hcan : canTransitionShopOrder order.status toStatus = true) :
      ShopBatch (.transitionShopOrder order.id toStatus) (transitionBatch order toStatus now) t
  | cancelUnstarted {t : Db} (orderId : Id) (now : Time) :
      ShopBatch (.cancelUnstartedBalancePayment orderId) [cancelUnstartedStatement orderId now] t
  | reserveBalance {t : Db} (order : ShopOrder) (user : User) (now : Time)
      (horder : S.Seen (fun s => reservableOrder s order.id user.id) (some (order, user)) t) :
      ShopBatch (.reserveOrderBalance order.id) (insertHold now (balanceSplit order user)) t
  | claimPayment {t : Db} (input : CreatePaymentInput) (amount : Minor) (quote : Minor × Nat × Nat)
      (e : CreatePaymentEnv) :
      ShopBatch (.createShopPayment input.orderId) (claimAttemptBatch (newAttempt input amount quote e))
        t
  | paymentCreated {t : Db} (attemptId : Id) (paymentId : ProviderPaymentId) (now : Time) :
      ShopBatch (.shopPaymentCreated attemptId)
        [updateAttempts (fun _ a => a.id == attemptId && a.status == .created)
          (fun _ a => { a with
            providerPaymentId := some paymentId, status := .pending, updatedAt := now })] t
  | paymentFailed {t : Db} (attemptId : Id) (code : String) (now : Time) :
      ShopBatch (.paymentCreationFailure attemptId)
        (paymentCreationFailureStatements attemptId code now) t
  | checkout {t : Db} (c : Checkout) (customer : Customer) (capacity : List Id)
      (coupon : Option (Coupon × Nat)) (hcustomer : c.customer = some customer)
      (hcoupon : coupon.map (·.1.id) = c.couponId)
      (hemail : ∀ k ∈ coupon, c.couponIdentity = some k.2) :
      ShopBatch (.createMultiStoreOrder (c.ref customer coupon)) (checkoutBatch c capacity coupon) t
  | mutateWallet {t : Db} (input : WalletMutation) (user : User) (after : Int)
      (hamount : input.amountMinor ≠ 0)
      (huser : S.Seen (fun s => (s.users.get? input.userId).filter (·.enabled)) (some user) t)
      (hafter : after = if input.direction = .credit then user.balanceMinor + input.amountMinor
        else user.balanceMinor - input.amountMinor)
      (hkey : (∃ id, input.idempotencyKey = .topup id) ∨ ∃ key, input.idempotencyKey = .other key) :
      ShopBatch (.mutateWallet input.userId input.idempotencyKey)
        (walletBatch input user.balanceMinor after user.balanceVersion) t
  | settleReward {t : Db} (orderId : Id) (now : Time) :
      ShopBatch (.settlePromotionReward orderId) [settleStatement orderId now] t

def AdmitsShop : Prop :=
  ∀ x sts t ns u, ShopBatch S A x sts t → S.inv t → S.cond x t → batch sts 0 t = .ok (ns, u) → S.Admits ∅ ∅ t u

/-- The system admits those at the sites in `P`. -/
def AdmitsShopAt (P : Site → Prop) : Prop :=
  ∀ x sts t ns u, P x → ShopBatch S A x sts t → S.inv t → S.cond x t → batch sts 0 t = .ok (ns, u) → S.Admits ∅ ∅ t u

end Batches

/-! ## Every call is in order -/

variable {β : Type} {x : Site} {sts : List (Stmt Db)} {P : Site → Prop} {event : PaymentEvent}
  {channelId orderId : Id} {input : WalletMutation} {context : PaymentContext} {order : ShopOrder}
  {e : PaymentEnv} {w : WalletOrder} {c : Checkout}

section Calls

variable {τ : Type} {S : Spec Db Site τ} {A : ShopOrderStatus → Prop} {α : Type} {s : Db}

theorem liftExcept_bare (r : Except DomainError α) : Bare S (liftExcept r : Call Site α) s := by
  cases r with
  | ok a => exact .done a
  | error e => exact .throw e

variable {k : α → Call Site β}

theorem liftExcept_bind {r : Except DomainError α} (h : ∀ a, r = .ok a → Bare S (k a) s) :
    Bare S (liftExcept r >>= k) s := by
  cases r with
  | ok a => exact h a rfl
  | error e => exact .throw e

theorem AdmitsShopAt.commit (h : AdmitsShopAt S A P) (hx : P x)
    (hb : ∀ t, S.rely ∅ s t → ShopBatch S A x sts t) : Bare S (Prog.commit x sts : Call Site (List Nat)) s :=
  Bare.commit fun t hr hi hc ns u hbatch => h x sts t ns u hx (hb t hr) hi hc hbatch

theorem AdmitsShop.at (h : AdmitsShop S A) (P : Site → Prop) : AdmitsShopAt S A P :=
  fun x sts t ns u _ => h x sts t ns u

theorem AdmitsShop.commit (h : AdmitsShop S A) (hb : ∀ t, S.rely ∅ s t → ShopBatch S A x sts t) :
    Bare S (Prog.commit x sts : Call Site (List Nat)) s :=
  Bare.commit fun t hr hi hc ns u hbatch => h x sts t ns u (hb t hr) hi hc hbatch

theorem query_bare {g : Db → α} (h : ∀ t v, S.Seen g v t → Bare S (k v) t) : Bare S (Prog.query g >>= k) s :=
  query fun t _ hi => h t (g t) (Spec.Seen.here S hi)

theorem recordPaymentEvent_bare (h : AdmitsShop S A) {reply : List Nat → Except DomainError PaymentReply}
    (hb : ∀ t, S.rely ∅ s t → ShopBatch S A x sts t) :
    Bare S (recordPaymentEvent x channelId event sts reply) s := by
  refine bind ?_ fun result t _ => ?_
  · refine tryCatch ((h.commit hb).bind fun _ _ _ => done _) fun err t _ => ?_
    refine query_bare fun u duplicate _ => ?_
    cases duplicate with
    | some receipt => exact .done _
    | none => exact .fail _
  · cases result with
    | inl receipt => exact liftExcept_bare _
    | inr results => exact liftExcept_bare _

/-! ### Wallets -/

theorem mutateWalletOnce_bare (h : AdmitsShop S A) (hamount : input.amountMinor ≠ 0)
    (hkey : (∃ id, input.idempotencyKey = .topup id) ∨ ∃ key, input.idempotencyKey = .other key) :
    Bare S (mutateWalletOnce input) s := by
  refine query_bare fun t user? huser => ?_
  cases user? with
  | none => exact .throw _
  | some user =>
    dsimp only
    generalize hafter : (if input.direction = .credit then user.balanceMinor + (input.amountMinor : Int)
      else user.balanceMinor - input.amountMinor) = after
    split
    · exact .throw _
    split
    · exact .throw _
    refine tryCatch ((h.commit fun u hu => ?_).bind fun _ _ _ => done _) fun err u _ => ?_
    · exact .mutateWallet input user after hamount (huser.later S hu) hafter.symm hkey
    · refine query_bare fun v duplicate _ => ?_
      cases duplicate with
      | some reply => exact .done _
      | none => exact .fail _

theorem mutateWallet_bare (h : AdmitsShop S A)
    (hkey : (∃ id, input.idempotencyKey = .topup id) ∨ ∃ key, input.idempotencyKey = .other key) :
    Bare S (mutateWallet input) s := by
  unfold mutateWallet
  split
  · exact .throw _
  next hamount =>
    refine query_bare fun t replay _ => ?_
    cases replay with
    | some reply => exact .done _
    | none =>
      -- round by round
      show Bare S (mutateWalletRounds input 4) t
      have hrounds : ∀ n u, Bare S (mutateWalletRounds input n) u := by
        intro n
        induction n with
        | zero => exact fun _ => .throw _
        | succ n ih =>
          refine fun u => (mutateWalletOnce_bare h hamount hkey).bind fun reply? v _ => ?_
          cases reply? with
          | some reply => exact .done _
          | none => exact ih v
      exact hrounds 4 t

/-! ### Payment events -/

theorem context_order {pid : ProviderPaymentId} {m : Option MerchantOrderId}
    (hcontext : S.Seen (fun s => loadPaymentContext s channelId pid m) (some context) s)
    (horder : context.order = some order) : S.Seen (fun s => s.orders.get? order.id) (some order) s := by
  obtain ⟨r, hi, hr, hc⟩ := hcontext
  refine ⟨r, hi, hr, ?_⟩
  simp only [loadPaymentContext, Option.bind_eq_bind, Option.bind_eq_some_iff] at hc
  obtain ⟨c, -, a, -, hctx⟩ := hc
  cases hctx
  obtain ⟨id, -, ho⟩ := Option.bind_eq_some_iff.mp horder
  rw [show order.id = id from get?_key ho]
  exact ho

theorem releasedCoupon_seen (hseen : S.Seen (fun s => s.orders.get? order.id) (some order) s)
    (hstatus : order.status = .pendingPayment ∨ order.status = .expired)
    {k : Option (Id × Bool) → Call Site α}
    (h : ∀ t coupon, S.rely ∅ s t → CouponSeen S order coupon t → Bare S (k coupon) t) :
    Bare S (releasedCoupon order >>= k) s := by
  unfold releasedCoupon
  by_cases hexp : order.status = .expired
  · rw [if_pos hexp]
    exact query fun t hr hi => h t _ hr (Or.inr ⟨hexp, t, hi, S.rely_refl _ _, hseen.later S hr, rfl⟩)
  · rw [if_neg hexp]
    exact h s none (S.rely_refl _ _) (Or.inl ⟨hstatus.resolve_right hexp, rfl⟩)

theorem CouponSeen.later {coupon : Option (Id × Bool)} {t : Db} (h : CouponSeen S order coupon s)
    (hr : S.rely ∅ s t) : CouponSeen S order coupon t :=
  h.imp_right fun ⟨hexp, r, hi, hrs, hseen, hc⟩ =>
    ⟨hexp, r, hi, S.rely_trans _ _ _ _ hrs hr, hseen, hc⟩

section

variable (h : AdmitsShop S A) (hcontext : S.Seen (fun s => loadPaymentContext s channelId event.providerPaymentId event.merchantOrderId) (some context) s)
include h hcontext

theorem payOrder_bare (horder : context.order = some order) :
    Bare S (payOrder channelId context.attempt.id event order e) s := by
  unfold payOrder
  split
  · exact .throw _
  next hstatus =>
    refine releasedCoupon_seen (context_order hcontext horder) (not_not.mp hstatus) fun t coupon hrt hcoupon => ?_
    split
    · exact recordPaymentEvent_bare h fun u _ => .reject _ _ _ _ _
    · refine query fun u hru hiu => ?_
      refine liftExcept_bind fun fulfillment hful => recordPaymentEvent_bare h fun v hrv => ?_
      exact .orderPayment channelId event context order coupon fulfillment e
        (hcontext.later S (S.rely_trans _ _ _ _ hrt (S.rely_trans _ _ _ _ hru hrv))) horder
        (hcoupon.later (S.rely_trans _ _ _ _ hru hrv))
        ⟨_, (Spec.Seen.here S hiu).later S hrv, hful⟩

theorem settleEvent_bare : Bare S (settleEvent channelId event context e) s := by
  unfold settleEvent
  dsimp only
  split
  · exact recordPaymentEvent_bare h fun _ _ => .receipt _ _ _
  cases htype : event.type with
  | pending => exact recordPaymentEvent_bare h fun _ _ => .receipt _ _ _
  | succeeded =>
    cases htopup : context.topup with
    | some topup =>
      show Bare S (payTopup channelId context.attempt.id event topup e) s
      unfold payTopup
      split
      · exact .throw _
      · exact (mutateWallet_bare h (Or.inl ⟨_, rfl⟩)).bind fun _ t _ =>
          recordPaymentEvent_bare h fun _ _ => .topup _ _ _ _ _
    | none =>
      cases horder : context.order with
      | some order => exact payOrder_bare h hcontext horder
      | none => exact .throw _
  | failed => exact recordPaymentEvent_bare h fun _ _ => .failed _ _ _ _
  | expired => exact recordPaymentEvent_bare h fun _ _ => .failed _ _ _ _

end

theorem processShopPaymentEvent_bare (h : AdmitsShop S A) (channelId : Id) (event : PaymentEvent)
    (e : PaymentEnv) : Bare S (processShopPaymentEvent channelId event e) s := by
  unfold processShopPaymentEvent
  refine query_bare fun t duplicate _ => ?_
  cases duplicate with
  | some receipt => exact liftExcept_bare _
  | none =>
    refine query_bare fun u context? hcontext => ?_
    cases context? with
    | none => exact .throw _
    | some context =>
      refine liftExcept_bind fun _ _ => ?_
      have hrest : ∀ released v, S.rely ∅ u v → Bare S (if released = true then (do
            let _ ← runPaymentEventBatch (.paymentEvent context.attempt.id) channelId event
              (rejectBatch channelId context.attempt.id event .paymentReconciliationRequired e.now)
            return { duplicate := false, status := .reconciliationRequired : PaymentReply })
          else settleEvent channelId event context e) v := by
        intro released v hv
        split
        · refine bind (tryCatch ((h.commit fun _ _ => .reject _ _ _ _ _).bind
            fun _ _ _ => done _) fun err w _ => ?_) fun _ _ _ => done _
          refine query_bare fun x duplicate _ => ?_
          cases duplicate with
          | some receipt => exact .done _
          | none => exact .fail _
        · exact settleEvent_bare h (hcontext.later S hv)
      unfold releasedFunding
      split
      · exact query fun v hv _ => hrest _ v hv
      · exact hrest false u (S.rely_refl _ _)

theorem handleShopPaymentWebhook_bare (h : AdmitsShop S A) (channelId : Id)
    (parsed : Except DomainError PaymentEvent) (e : PaymentEnv) :
    Bare S (handleShopPaymentWebhook channelId parsed e) s := by
  unfold handleShopPaymentWebhook
  refine query_bare fun t channel _ => ?_
  cases channel with
  | none => exact .throw _
  | some c => exact liftExcept_bind fun event _ => processShopPaymentEvent_bare h _ _ _

theorem reconcilePaymentAttempt_bare (h : AdmitsShop S A) (attempt : PaymentAttempt)
    (paymentId : ProviderPaymentId) (answer : Except DomainError PaymentQuery) (e : PaymentEnv) :
    Bare S (reconcilePaymentAttempt attempt paymentId answer e) s := by
  unfold reconcilePaymentAttempt
  refine liftExcept_bind fun query _ => ?_
  cases query with
  | open' => exact (h.commit fun _ _ => .reconcile _ _).bind fun _ _ _ => done _
  | succeeded amount currency =>
    exact (processShopPaymentEvent_bare h _ _ _).bind fun _ _ _ => done _

/-! ### Completions -/

theorem completeFreeStoreOrder_bare (h : AdmitsShop S A) (orderId : Id) (userId : Option Id)
    (e : PaymentEnv) : Bare S (completeFreeStoreOrder orderId userId e) s := by
  unfold completeFreeStoreOrder
  refine query_bare fun t order? horder => ?_
  cases order? with
  | none => exact .throw _
  | some order =>
    have hid : order.id = orderId := by
      obtain ⟨r, -, -, hr⟩ := horder
      exact get?_key hr
    subst hid
    refine bind (s := t) ?_ fun hold u hu => ?_
    · unfold fullHold
      split
      · exact .done _
      · exact query fun _ _ _ => done _
    · split
      · exact .throw _
      split
      · exact .done _
      split
      · exact .throw _
      refine query fun v hv hiv => liftExcept_bind fun fulfillment hful =>
        (h.commit fun x hx => ?_).bind fun results _ _ => ?_
      · exact .freeOrder order fulfillment e (horder.later S (S.rely_trans _ _ _ _ hu (S.rely_trans _ _ _ _ hv hx)))
          ⟨_, (Spec.Seen.here S hiv).later S hx, hful⟩
      · split
        · exact .throw _
        · exact .done _

theorem commitWalletOrder_bare (h : AdmitsShopAt S A P) {user : User} {items : List OrderItem}
    (hP : P (.completeWalletStoreOrder w.order.id w.order.version))
    (horder : S.Seen (fun s => walletPaymentOrder s w.order.id w.userId) (some w) s)
    (huser : w.user = some user) (hitems : S.Seen (fun s => orderItemsForFulfillment s w.order.id) items s) :
    Bare S (commitWalletOrder w.order user items e) s := by
  unfold commitWalletOrder
  refine liftExcept_bind fun fulfillment hful =>
    (h.commit hP fun t ht => ?_).bind fun results t _ => ?_
  · exact .walletOrder w user fulfillment e (horder.later S ht) huser ⟨items, hitems.later S ht, hful⟩
  · split
    · refine query_bare fun u current _ => ?_
      cases current with
      | none => exact .throw _
      | some st =>
        dsimp only
        split
        · exact .done _
        · exact .throw _
    · exact .done _

theorem walletPaymentOrder_id {userId : Id} (h : walletPaymentOrder s orderId userId = some w) :
    w.order.id = orderId ∧ w.userId = userId := by
  unfold walletPaymentOrder at h
  cases ho : s.orders.get? orderId with
  | none => simp [ho] at h
  | some o =>
    simp only [ho, Option.bind_eq_bind, Option.bind_some] at h
    split at h
    · cases h
      exact ⟨get?_key ho, rfl⟩
    · cases h

theorem completeWalletStoreOrder_bare (h : AdmitsShopAt S A P)
    (hP : ∀ version, P (.completeWalletStoreOrder orderId version)) (userId : Id) (currency : Nat)
    (e : PaymentEnv) : Bare S (completeWalletStoreOrder orderId userId currency e) s := by
  unfold completeWalletStoreOrder
  refine query_bare fun t order? horder => ?_
  cases order? with
  | none => exact .throw _
  | some w =>
    obtain ⟨hid, huid⟩ : w.order.id = orderId ∧ w.userId = userId := by
      obtain ⟨r, -, -, hr⟩ := horder
      exact walletPaymentOrder_id hr
    subst hid huid
    dsimp only
    split
    · split
      · exact .done _
      · exact .throw _
    refine query fun u hu _ => ?_
    split
    · exact .throw _
    split
    · exact .throw _
    cases huser : w.user with
    | none => exact .throw _
    | some user =>
      dsimp only
      split
      · exact .throw _
      · exact query fun v hv hiv => commitWalletOrder_bare h (hP _)
          (horder.later S (S.rely_trans _ _ _ _ hu hv)) huser (Spec.Seen.here S hiv)

/-! ### Expiry, transitions and the reserve -/

section

variable (h : AdmitsShopAt S A P) (hP : ∀ orderId version, P (.expireStoreOrder orderId version)) (now : Time)
include h hP now

theorem expireOrders_bare (rows : List (Id × Nat)) : Bare S (expireOrders now rows) s := by
  induction rows generalizing s with
  | nil => exact .done _
  | cons row rest ih =>
    exact (h.commit (hP _ _) fun _ _ => .expire _ _ _).bind fun _ _ _ => ih.bind fun _ _ _ => done _

theorem expireStoreOrders_bare (limit : Nat) : Bare S (expireStoreOrders now limit) s :=
  query_bare fun _ _ _ => (expireOrders_bare h hP now _).bind fun _ _ _ => done _

end

theorem transitionShopOrder_bare (h : AdmitsShop S A) (orderId : Id) (version : Nat)
    {toStatus : ShopOrderStatus} (hA : A toStatus) (now : Time) :
    Bare S (transitionShopOrder orderId version toStatus now) s := by
  unfold transitionShopOrder
  refine query_bare fun t order? horder => ?_
  cases order? with
  | none => exact .throw _
  | some order =>
    have hid : order.id = orderId := by
      obtain ⟨r, -, -, hr⟩ := horder
      exact get?_key hr
    subst hid
    dsimp only
    split
    · exact .throw _
    split
    · exact .throw _
    next hcan =>
      refine (h.commit fun u hu => ?_).bind fun results u _ => ?_
      · exact .transition order toStatus now hA (horder.later S hu) (by simpa using hcan)
      · split
        · exact .throw _
        · exact .done _

theorem reserveOrderBalance_bare (h : AdmitsShop S A) (orderId userId : Id) (now : Time) :
    Bare S (reserveOrderBalance orderId userId now) s := by
  unfold reserveOrderBalance
  refine query_bare fun t existing _ => ?_
  cases existing with
  | some hold =>
    dsimp only
    split
    · exact .throw _
    · exact .done _
  | none =>
    refine query_bare fun u order? horder => ?_
    cases order? with
    | none => exact .throw _
    | some ou =>
      obtain ⟨order, user⟩ := ou
      obtain ⟨hid, huid⟩ : order.id = orderId ∧ user.id = userId := by
        obtain ⟨r, -, -, hr⟩ := horder
        simp only [reservableOrder, Option.bind_eq_bind, Option.bind_eq_some_iff] at hr
        obtain ⟨o, ho, x, hx, hr⟩ := hr
        split at hr
        · cases hr
          exact ⟨get?_key ho, get?_key hx⟩
        · cases hr
      subst hid huid
      dsimp only
      split
      · exact .done _
      · refine tryCatch ((h.commit fun v hv => ?_).bind fun _ _ _ => done _)
          fun _ v _ => query_bare fun w replay _ => ?_
        · exact .reserveBalance order user now (horder.later S hv)
        · cases replay with
          | some hold => exact .done _
          | none => exact .throw _

/-! ### Payment attempts, checkout and rewards -/

theorem createShopPayment_bare (h : AdmitsShop S A) (input : CreatePaymentInput)
    (e : CreatePaymentEnv) : Bare S (createShopPayment input e) s := by
  unfold createShopPayment
  refine query_bare fun t existing _ => ?_
  cases existing with
  | some attempt => exact liftExcept_bare _
  | none =>
    refine query_bare fun u context _ => ?_
    cases context with
    | none => exact .throw _
    | some oa =>
      dsimp only
      split
      · exact .throw _
      split
      · exact .throw _
      refine query_bare fun v hold _ => ?_
      split
      · exact .throw _
      refine liftExcept_bind fun quote _ => (h.commit fun _ _ => .claimPayment _ _ _ _).bind fun claimed w _ => ?_
      split
      · refine query_bare fun x replay _ => ?_
        cases replay with
        | none => exact .throw _
        | some attempt => exact liftExcept_bare _
      · refine tryCatch (liftExcept_bind fun paymentId _ => (h.commit fun _ _ =>
          .paymentCreated _ _ _).bind fun _ _ _ => done _) fun err x _ => ?_
        exact (h.commit fun _ _ => .paymentFailed _ _ _).bind fun _ _ _ => fail _

theorem prepareSale_bare (saleComponents : List Id) (componentId : Id) (quantity : Nat) :
    Bare S (prepareSale saleComponents componentId quantity) s := by
  unfold prepareSale
  split
  · exact .done _
  · refine query_bare fun u count _ => ?_
    split
    · exact .throw _
    · exact .done _

theorem prepareLines_bare (saleComponents : List Id) (customer : Customer)
    (lines : List ShopOrderItem) : Bare S (prepareLines saleComponents customer lines) s := by
  induction lines generalizing s with
  | nil => exact .done _
  | cons line rest ih =>
    refine bind (s := s) ?_ fun _ t _ => bind (s := t) ?_ fun capacity u _ =>
      ih.bind fun _ _ _ => done _
    · refine query_bare fun t limit _ => ?_
      cases limit with
      | none => exact .done _
      | some limit =>
        refine query_bare fun u total _ => ?_
        split
        · exact .throw _
        · exact .done _
    · unfold prepareLine
      split
      · exact prepareSale_bare _ _ _
      · exact .done _

theorem loadCoupon_bind {couponId : Id} {email : Nat} {k : Coupon → Call Site α}
    (h : ∀ t coupon, coupon.id = couponId → Bare S (k coupon) t) :
    Bare S (loadCoupon c couponId email >>= k) s := by
  unfold loadCoupon
  refine query_bare fun t row hrow => ?_
  cases row with
  | none => exact .throw _
  | some x =>
    obtain ⟨coupon, uses⟩ := x
    have hcoupon : coupon.id = couponId := by
      obtain ⟨r, -, -, hr⟩ := hrow
      obtain ⟨y, hy, hyx⟩ := Option.map_eq_some_iff.mp hr
      cases hyx
      exact get?_key (Option.mem_filter_iff.mp hy).1
    show Bare S ((if _ then _ else if _ then _ else _) >>= k) t
    split
    · exact .throw _
    split
    · exact .throw _
    · rw [bind_assoc]
      exact liftExcept_bind fun _ _ => h t coupon hcoupon

theorem checkoutCoupon_bind {k : Option (Coupon × Nat) → Call Site α}
    (h : ∀ t coupon, coupon.map (·.1.id) = c.couponId →
      (∀ x ∈ coupon, c.couponIdentity = some x.2) → Bare S (k coupon) t) :
    Bare S (checkoutCoupon c >>= k) s := by
  unfold checkoutCoupon
  cases hid : c.couponId with
  | none => exact h s none hid.symm fun _ hx => by cases hx
  | some couponId =>
    cases hemail : c.couponIdentity with
    | none => exact .throw _
    | some email =>
      dsimp only
      rw [bind_assoc]
      refine loadCoupon_bind fun t coupon hcoupon => h t (some (coupon, email)) ?_ fun x hx => ?_
      · rw [hid, ← hcoupon]
        rfl
      · cases hx
        exact hemail

section

variable (h : AdmitsShop S A)
include h

theorem createMultiStoreOrder_bare (c : Checkout) : Bare S (createMultiStoreOrder c) s := by
  unfold createMultiStoreOrder
  cases hcustomer : c.customer with
  | none => exact .throw _
  | some customer =>
    refine (prepareLines_bare _ _ _).bind fun capacity t _ =>
      checkoutCoupon_bind fun u coupon hid hemail => ?_
    refine tryCatch ((h.commit fun _ _ => ?_).bind fun _ _ _ => done _) fun _ _ _ => fail _
    exact .checkout c customer capacity coupon hcustomer hid hemail

theorem settleOrders_bare (now : Time) (rows : List Id) : Bare S (settleOrders now rows) s := by
  induction rows generalizing s with
  | nil => exact .done _
  | cons row rest ih =>
    exact (h.commit fun _ _ => .settleReward _ _).bind fun _ _ _ => ih.bind fun _ _ _ => done _

theorem settlePromotionRewards_bare (now : Time) : Bare S (settlePromotionRewards now) s :=
  query_bare fun _ _ _ => settleOrders_bare h now _

theorem ShopCall.bare (c : ShopCall) (hc : c.within A) (s : Db) : Bare S c.code s := by
  cases c with
  | checkout c => exact (createMultiStoreOrder_bare h c).void
  | createPayment input e => exact (createShopPayment_bare h input e).void
  | webhook channelId parsed e => exact (handleShopPaymentWebhook_bare h channelId parsed e).void
  | reconcile attempt paymentId answer e =>
    exact (reconcilePaymentAttempt_bare h attempt paymentId answer e).void
  | completeFree orderId userId e => exact (completeFreeStoreOrder_bare h orderId userId e).void
  | completeWallet orderId userId currency e =>
    exact (completeWalletStoreOrder_bare (h.at fun _ => True) (fun _ => trivial) userId currency e).void
  | expire now limit =>
    exact (expireStoreOrders_bare (h.at fun _ => True) (fun _ _ => trivial) now limit).void
  | transition orderId version toStatus now =>
    exact (transitionShopOrder_bare h orderId version hc now).void
  | reserveBalance orderId userId now => exact (reserveOrderBalance_bare h orderId userId now).void
  | cancelUnstarted orderId now =>
    exact ((h.commit fun _ _ => .cancelUnstarted _ _).bind fun _ _ _ => done _).void
  | adjustWallet userId direction amount key =>
    exact (mutateWallet_bare h (Or.inr ⟨_, rfl⟩)).void
  | settleRewards now => exact (settlePromotionRewards_bare h now).void

end

end Calls

/-! ## Any two points of a run -/

section Later

variable {R : Db → Db → Prop} (hrefl : ∀ s, R s s) (htrans : ∀ s t u, R s t → R t u → R s u)

/-- Nothing is asked of the states but that they are related by `R`. -/
def laterSpec : Spec Db Site Empty :=
  .ofRel (fun _ => True) anySite (fun _ _ => True) R (fun _ => trivial) hrefl htrans

/-- A relation that every batch stays within holds between any two points of a run. -/
theorem ShopCall.later {A : ShopOrderStatus → Prop} {κ : Type} {f : κ → ShopCall} (hf : ∀ c, (f c).within A)
    (h : ∀ {x sts t ns u}, ShopBatch (laterSpec hrefl htrans) A x sts t → batch sts 0 t = .ok (ns, u) → R t u)
    {s : Db} {w v : World Db Site DomainError Unit} (hrun : Runs (fun c => (f c).code) anySite ⟨s, []⟩ w)
    (hlater : Runs (fun c => (f c).code) anySite w v) : R w.db v.db := by
  have hadmits : AdmitsShop (laterSpec hrefl htrans) A :=
    fun _ _ _ _ _ hb _ _ hbatch => Spec.admits_ofRel trivial trivial fun _ => h hb hbatch
  have hcode : ∀ c s, True → Prog.Ok (laterSpec hrefl htrans) Prog.anyEnd (f c).code ∅ s :=
    fun c s _ => (ShopCall.bare hadmits (f c) (hf c) s).ok
  exact (Runs.sound _ hcode hlater (Runs.sound _ hcode hrun (good_idle (laterSpec hrefl htrans) trivial)).1).2

end Later

end Gmshop
