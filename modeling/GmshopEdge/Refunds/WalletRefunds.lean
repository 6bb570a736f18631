import GmshopEdge.Entitlements.Replay
import GmshopEdge.Fulfillment.DeliverBatch
import GmshopEdge.Lib.Alone
import GmshopEdge.Refunds.Budget

/-!
# Refunds of wallet payments

`requestWalletShopRefund`, requests one after the other. A partial refund keeps the order's status, and its event goes
from that status to itself, which the event table's CHECK refuses: the batch aborts. The refund of all that is left
goes through.

    every request does as asked  ↔  each is for all that is left  (wallet_refunds_whole)
-/

namespace Gmshop

open List Sql Stmt Prog

/-! ## The statements after the event -/

theorem rebuildStatement_total {now : Time} {guard : Option RefundGuard} {r : EntitlementRead}
    (hvalid : ∀ g ∈ r.active, Row.valid g = true) : Total (rebuildStatement now guard r) := by
  intro c s
  have hsum : ∀ key : EntitlementGrant → Option Nat, (∀ g ∈ r.active, key g ≠ some 0) →
      sumGranted r.active key ≠ some 0 := by
    intro key hkey hzero
    unfold sumGranted at hzero
    split at hzero
    · cases hzero
    · next hsome =>
      rw [Bool.not_eq_true, Bool.or_eq_false_iff, any_eq_false] at hsome
      obtain ⟨g, gs, hgs⟩ := exists_cons_of_ne_nil fun hnil : r.active = [] => by
        rw [hnil] at hsome
        cases hsome.1
      rw [hgs] at hzero hsome hkey
      have hle : ∀ (xs : List EntitlementGrant) (n : Nat),
          n ≤ xs.foldl (fun total g => total + (key g).getD 0) n := by
        intro xs
        induction xs with
        | nil => exact fun n => le_rfl
        | cons x xs ih => exact fun n => (Nat.le_add_right _ _).trans (ih _)
      have hrest := hle gs (0 + (key g).getD 0)
      have hfold : (gs.foldl (fun total g => total + (key g).getD 0) (0 + (key g).getD 0)) = 0 := Option.some.inj hzero
      rw [hfold] at hrest
      refine hkey g mem_cons_self ?_
      cases hg : key g with
      | none => exact absurd (by rw [hg]; rfl) (hsome.2 g mem_cons_self)
      | some n =>
        rw [hg, Option.getD_some] at hrest
        have : n = 0 := by omega
        rw [this]
  have hgrant : ∀ g ∈ r.active, g.usageGranted ≠ some 0 ∧ g.accessGranted ≠ some 0 := by
    intro g hg
    have hg : (decide (g.durationMs ≠ some 0) && decide (g.usageGranted ≠ some 0) &&
      decide (g.accessGranted ≠ some 0)) = true := hvalid g hg
    rw [Bool.and_eq_true, Bool.and_eq_true] at hg
    exact ⟨of_decide_eq_true hg.1.2, of_decide_eq_true hg.2⟩
  obtain ⟨t, -, h⟩ := update_runs (T := Db.entitlementsT) (s := s)
    (p := fun s e => e.id == r.entitlementId && RefundGuard.holds guard now s)
    (f := fun _ e => rebuiltEntitlement r.active ((r.entitlement.map (·.usageCount)).getD 0)
      ((r.entitlement.map (·.accessCount)).getD 0) now e)
    (fun a _ b _ hab => by split <;> split <;> exact hab)
    (fun e he => by
      split
      · show (decide (sumGranted r.active _ ≠ some 0) && decide (sumGranted r.active _ ≠ some 0)) = true
        rw [Bool.and_eq_true, decide_eq_true_eq, decide_eq_true_eq]
        exact ⟨hsum _ fun g hg => (hgrant g hg).1, hsum _ fun g hg => (hgrant g hg).2⟩
      · exact s.entitlements.valid e he) c
  exact ⟨_, _, h⟩

theorem cancelOpenFulfillment_total (orderId : Id) : ∀ st ∈ cancelOpenFulfillmentStatements orderId, Total st := by
  intro st hst
  exact each_four (update_isTotal (fun s a b => by split <;> split <;> rfl) fun s r => by split <;> rfl)
    (update_isTotal (fun s a b => by split <;> split <;> rfl) fun s r => by split <;> rfl)
    (update_isTotal (fun s a b => by split <;> split <;> rfl) fun s r => by split <;> rfl)
    (update_isTotal (fun s a b => by split <;> split <;> rfl) fun s r => by split <;> rfl) _ hst

def closingReads (s : Db) (orderId : Id) : List EntitlementRead :=
  (affectedEntitlements s orderId).map (readEntitlement s orderId)

def closing (s : Db) (orderId : Id) (now : Time) : List (Stmt Db) :=
  refundStatements orderId now none (closingReads s orderId) ++ cancelOpenFulfillmentStatements orderId

theorem closing_total (s : Db) (orderId : Id) (now : Time) : ∀ st ∈ closing s orderId now, Total st := by
  intro st hst
  rcases mem_append.mp hst with hst | hst
  · rcases mem_cons.mp hst with rfl | hst
    · exact update_isTotal (fun s a b => by split <;> split <;> rfl) fun s r => by split <;> rfl
    · obtain ⟨r, hr, rfl⟩ := mem_map.mp hst
      obtain ⟨e, -, rfl⟩ := mem_map.mp hr
      refine rebuildStatement_total fun g hg => s.grants.valid g ?_
      have hmem := (perm_insertionSort _ _).mem_iff.mp (mem_filter.mp hg).1
      exact (mem_filter.mp hmem).1
  · exact cancelOpenFulfillment_total orderId st hst

variable {γ : Type} {r : Refund} {s : Db} {c : Nat} {ns : List Nat} {o : ShopOrder} {g : Db → γ}

theorem closing_keeps (hg : OffEntitlements g) (hs : ∀ s t, g (Db.supplierOrdersT.set s t) = g s)
    (ho : ∀ s t, g (Db.outboxT.set s t) = g s) (hd : ∀ s t, g (Db.deliveriesT.set s t) = g s) (s : Db)
    (orderId : Id) (now : Time) : ∀ st ∈ closing s orderId now, Keeps g st := by
  intro st hst
  rcases mem_append.mp hst with hst | hst
  · rcases mem_cons.mp hst with rfl | hst
    · exact update_keeps hg.grants
    · obtain ⟨r, -, rfl⟩ := mem_map.mp hst
      exact update_keeps hg.entitlements
  · exact cancelOpenFulfillmentStatements_keep orderId hs ho hd st hst

/-! ## The refund row -/

def reversalRows (r : Refund) (s : Db) : List RewardEntry :=
  if 0 < r.referralReversalMinor then (s.users.rows.filter fun u => s.rewards.exist fun w =>
        w.orderId == r.orderId && w.state == .available && w.userId == some u.id).map fun u =>
      { userId := u.id, deltaMinor := -r.referralReversalMinor
        balanceAfterMinor := u.rewardBalanceMinor, idempotencyKey := .reversal r.id }
  else []

theorem reversalRows_key {x : RewardEntry} (hx : x ∈ reversalRows r s) : x.idempotencyKey = .reversal r.id := by
  unfold reversalRows at hx
  split at hx
  · obtain ⟨u, -, rfl⟩ := mem_map.mp hx
    rfl
  · cases hx

theorem reversalRows_distinct (r : Refund) (s : Db) :
    (reversalRows r s).Pairwise fun a b => Row.clash a b = false := by
  unfold reversalRows
  split
  · rw [pairwise_map]
    refine List.Pairwise.imp_of_mem (fun {a b} ha hb hne => absurd ?_ hne) ((s.users.keys_pairwise).filter _)
    obtain ⟨wa, hwa, hpa⟩ := Table.exist_iff.mp (mem_filter.mp ha).2
    obtain ⟨wb, hwb, hpb⟩ := Table.exist_iff.mp (mem_filter.mp hb).2
    simp only [Bool.and_eq_true, beq_iff_eq] at hpa hpb
    have hsame : wa = wb := Table.eq_of_key hwa hwb (hpa.1.1.trans hpb.1.1.symm)
    exact Option.some.inj (hpa.2.symm.trans ((congrArg _ hsame).trans hpb.2))
  · exact List.Pairwise.nil

theorem reversalRows_runs (hfree : ∀ w ∈ s.rewardEntries.rows, w.idempotencyKey ≠ .reversal r.id) (c : Nat) :
    ∃ n t, insert Db.rewardEntriesT .abort (reversalRows r) c s = .ok (n, t) := by
  refine insert_runs (reversalRows_distinct r s) (fun _ _ => rfl) (fun x hx y hy => ?_) c
  show (x.idempotencyKey == y.idempotencyKey) = false
  rw [reversalRows_key hy]
  exact beq_false_of_ne (hfree x hx)

theorem promotionRefund_runs (hcash : r.cashReturnMinor = 0) (hreward : r.rewardReturnMinor = 0)
    (hfree : ∀ w ∈ s.rewardEntries.rows, w.idempotencyKey ≠ .reversal r.id) (c : Nat) :
    ∃ ns t, batch (promotionRefund r) c s = .ok (ns, t) := by
  have hno : ¬(0 : Int) < 0 := by omega
  have hnever : (decide ((0 : Int) < 0) || decide ((0 : Int) < 0)) = false := by decide
  unfold promotionRefund
  rw [hcash, hreward]
  show ∃ ns t, batch ([_, _, _, _] ++ _ :: [_]) c s = .ok (ns, t)
  refine batch_around (g := Db.rewardEntries) ?_
    (fun c t ht => reversalRows_runs (r := r) (by rw [ht]; exact hfree) c) ?_ c
  · intro x hx
    simp only [mem_cons, not_mem_nil, or_false] at hx
    rcases hx with rfl | rfl | rfl | rfl
    · exact ⟨insert_none fun _ => if_neg hno, insert_off rfl⟩
    · refine ⟨update_isTotal (fun s a b => ?_) fun s u => ?_, update_off rfl⟩
      · split <;> split <;> rfl
      · rw [hnever, Bool.and_false]
        rfl
    · refine ⟨insert_none fun _ => if_neg hno, fun c s n s' h => ?_⟩
      obtain ⟨-, t, ht, rfl⟩ := insert_abort_ok h
      rw [if_neg hno, append_nil] at ht
      exact Table.ext_rows ht
    · refine ⟨update_isTotal (fun s a b => ?_) fun s u => ?_, update_off rfl⟩
      · split <;> split <;> rfl
      · split <;> rfl
  · intro x hx
    rw [mem_singleton.mp hx]
    refine update_isTotal (fun s a b => ?_) fun s w => ?_
    · show (PromotionReward.orderId (if _ then _ else a) == PromotionReward.orderId (if _ then _ else b)) = _
      rw [apply_ite PromotionReward.orderId, apply_ite PromotionReward.orderId, ite_self, ite_self]
      rfl
    · split <;> rfl

/-! ## The batch -/

section Batch

variable (input : RefundRequest) (order : ShopOrder) (user : User) (available reversal : Int) (id : Id) (now : Time)

def walletRefundStatus : ShopOrderStatus :=
  if (input.amountMinor : Int) = available then .refunded else order.status

def creditUser : Stmt Db :=
  update Db.usersT (fun s u => u.id == user.id && u.balanceVersion == user.balanceVersion &&
      s.orderIs order.id (orderCas order.id order.status order.version))
    (fun _ u => { u with
      balanceMinor := user.balanceMinor + input.amountMinor, balanceVersion := user.balanceVersion + 1 })

def creditEntry (u : User) : WalletEntry where
  userId := u.id
  direction := .credit
  amountMinor := input.amountMinor
  balanceBeforeMinor := user.balanceMinor
  balanceAfterMinor := u.balanceMinor
  sourceType := .refund
  sourceId := order.id
  idempotencyKey := .walletRefund id

def enterCredit : Stmt Db :=
  insert Db.walletEntriesT .abort fun s =>
    (s.users.rows.filter fun u => u.id == user.id && u.balanceVersion == user.balanceVersion + 1 &&
      u.balanceMinor == user.balanceMinor + input.amountMinor).map (creditEntry input order user id)

def moveRefunded : Stmt Db :=
  updateOrders (fun s o => orderCas order.id order.status order.version o &&
      s.walletEntries.exist fun w => w.idempotencyKey == .walletRefund id)
    (fun _ o => setStatus (walletRefundStatus input order available) (order.version + 1) now o)

def walletRefundRow (o : ShopOrder) : Refund where
  id := id
  orderId := o.id
  paymentAttemptId := none
  idempotencyKey := input.idempotencyKey
  amountMinor := input.amountMinor
  paymentAmountMinor := input.amountMinor
  orderStatusBefore := order.status
  status := .succeeded
  completedAt := some now
  referralReversalMinor := reversal

def walletRefundEvent (o : ShopOrder) : ShopOrderEvent where
  orderId := o.id
  eventType := .refundSucceeded
  fromStatus := some order.status
  toStatus := some (walletRefundStatus input order available)
  orderVersion := some o.version

def recordRefund : Stmt Db :=
  insertRefund fun s => s.fromOrder order.id (fun o => o.version == order.version + 1)
    (walletRefundRow input order reversal id now)

def recordEvent : Stmt Db :=
  insert Db.eventsT .abort fun s => s.fromOrder order.id (fun o => o.version == order.version + 1)
    (walletRefundEvent input order available)

theorem walletRefundBatch_eq (revoke : List (Stmt Db)) :
    walletRefundBatch input order user available reversal id now revoke =
      [creditUser input order user, enterCredit input order user id, moveRefunded input order available id now] ++
        recordRefund input order reversal id now :: recordEvent input order available ::
          if walletRefundStatus input order available = .refunded then revoke ++ cancelOpenFulfillmentStatements order.id
          else [] := rfl

end Batch

section Effects

variable {input : RefundRequest} {order : ShopOrder} {user : User} {available reversal : Int} {id : Id} {now : Time}
  {s t : Db}

structure WalletRead (order : ShopOrder) (user : User) (s : Db) : Prop where
  order : s.orders.get? order.id = some order
  user : s.users.get? user.id = some user

theorem orderCas_self (o : ShopOrder) : orderCas o.id o.status o.version o = true := by
  unfold orderCas
  rw [beq_self_eq_true, beq_self_eq_true, beq_self_eq_true]
  rfl

section

variable (hread : WalletRead order user s)
include hread

theorem creditUser_ok {n : Nat} (h : creditUser input order user c s = .ok (n, t)) :
    n = 1 ∧ (∃ table, t = Db.usersT.set s table) ∧ t.users.get? user.id = some
      { user with balanceMinor := user.balanceMinor + input.amountMinor, balanceVersion := user.balanceVersion + 1 } := by
  have hcas : s.orderIs order.id (orderCas order.id order.status order.version) = true :=
    orderIs_iff.mpr ⟨order, hread.order, orderCas_self order⟩
  have hwhere : ∀ u : User, (u.id == user.id && u.balanceVersion == user.balanceVersion &&
      s.orderIs order.id (orderCas order.id order.status order.version)) =
        (KeyedRow.key u == user.id && u.balanceVersion == user.balanceVersion) := by
    intro u
    rw [hcas, Bool.and_true]
    rfl
  have hhit : (user.id == user.id && user.balanceVersion == user.balanceVersion) = true := by
    rw [beq_self_eq_true, beq_self_eq_true]
    rfl
  obtain ⟨rfl, table, hrows, rfl⟩ := update_ok h
  refine ⟨?_, ⟨table, rfl⟩, ?_⟩
  · show s.users.count _ = 1
    rw [show (fun u : User => u.id == user.id && u.balanceVersion == user.balanceVersion &&
      s.orderIs order.id (orderCas order.id order.status order.version)) =
        fun u => KeyedRow.key u == user.id && u.balanceVersion == user.balanceVersion from funext hwhere,
      Table.count_key, hread.user]
    rw [Option.filter_some, if_pos (beq_self_eq_true _)]
    rfl
  · show table.get? user.id = _
    rw [Table.get?_map hrows (fun u => by split <;> rfl) user.id, show Db.usersT.get s = s.users from rfl, hread.user,
      Option.map_some, if_pos (by rw [hcas, Bool.and_true]; exact hhit)]

theorem walletMoves_ok
    (h : batch [creditUser input order user, enterCredit input order user id, moveRefunded input order available id now]
      c s = .ok (ns, t)) :
    t.orders.get? order.id = some (setStatus (walletRefundStatus input order available) (order.version + 1) now order) := by
  obtain ⟨n1, s1, n2, s2, n3, s3, h1, h2, h3, rfl⟩ := batch_three_ok h
  obtain ⟨-, ⟨users, rfl⟩, huser⟩ := creditUser_ok hread h1
  obtain ⟨-, entries, hentries, rfl⟩ := insert_abort_ok h2
  have hmem : creditEntry input order user id
      { user with balanceMinor := user.balanceMinor + input.amountMinor, balanceVersion := user.balanceVersion + 1 } ∈
        entries.rows := by
    rw [hentries]
    refine mem_append_right _ (mem_map_of_mem (mem_filter.mpr ⟨Table.get?_mem huser, ?_⟩))
    rw [beq_self_eq_true, beq_self_eq_true, beq_self_eq_true]
    rfl
  have hexist : entries.exist (fun w => w.idempotencyKey == .walletRefund id) = true :=
    Table.exist_iff.mpr ⟨_, hmem, beq_self_eq_true _⟩
  have hrows := (updateOrders_rows (f := fun _ o => setStatus (walletRefundStatus input order available)
    (order.version + 1) now o) (fun _ _ => rfl) h3).2
  rw [Table.get?_map hrows (fun o => by split <;> rfl) order.id]
  show (s.orders.get? order.id).map _ = _
  rw [hread.order, Option.map_some, if_pos]
  show (orderCas _ _ _ _ && entries.exist _) = true
  rw [orderCas_self, hexist]
  rfl

/-- A batch that goes through refunds all that is left, under a version that has no event: the event of a partial
refund would go from a status to itself. -/
theorem walletRefundBatch_ok {revoke : List (Stmt Db)}
    (h : batch (walletRefundBatch input order user available reversal id now revoke) 0 s = .ok (ns, t)) :
    (input.amountMinor : Int) = available ∧ VersionFree order.id (order.version + 1) s := by
  rw [walletRefundBatch_eq] at h
  obtain ⟨ns1, s1, ns2, h1, h2, -⟩ := batch_append_ok h
  have horder := walletMoves_ok hread h1
  obtain ⟨n2, s2, ns3, hrefund, h3, -⟩ := batch_cons_ok h2
  obtain ⟨n3, s3, ns4, hevent, -, -⟩ := batch_cons_ok h3
  have hmoves : s1.events = s.events := by
    refine batch_keeps (g := Db.events) (fun st hst => ?_) h1
    exact each_three (update_off rfl) (insert_off rfl)
      (updateOrders_keeps (by constructor <;> exact fun _ _ => rfl) fun _ _ => rfl) _ hst
  have hkept : (s2.orders, s2.events) = (s1.orders, s1.events) :=
    Keeps.eq (g := fun s => (s.orders, s.events))
      (insertRefund_keeps (by constructor <;> exact fun _ _ => rfl) fun _ _ => rfl) hrefund
  simp only [Prod.mk.injEq] at hkept
  obtain ⟨-, events, hrows, -⟩ := insert_abort_ok hevent
  rw [← hkept.1] at horder
  rw [fromOrder_some (p := fun o => o.version == order.version + 1) horder (beq_self_eq_true _)] at hrows
  constructor
  · have hvalid := events.valid _ (hrows ▸ mem_append_right _ (mem_singleton_self _))
    have hvalid : decide (order.status ≠ walletRefundStatus input order available) = true := hvalid
    by_contra hpart
    exact of_decide_eq_true hvalid (if_neg hpart).symm
  · intro ev hev hof hversion
    have hev : ev ∈ s2.events.rows := by
      rw [hkept.2, hmoves]
      exact hev
    have hclash := Table.distinct_append hrows hev
    have hclash : ((ev.orderId == order.id && ev.orderVersion == some (order.version + 1) && ev.orderVersion.isSome) ||
      (ev.id == none && ev.id.isSome)) = false := hclash
    rw [hof, hversion, beq_self_eq_true, beq_self_eq_true] at hclash
    cases hclash

end

/-! ### The refund of all that is left -/

theorem updateOrders_calm (ho : ∀ s t, g (Db.ordersT.set s t) = g s)
    (hr : ∀ s t, g (Db.rewardsT.set s t) = g s) {p : Db → ShopOrder → Bool} {f : Db → ShopOrder → ShopOrder}
    (hf : ∀ s o, (f s o).status ≠ .paid ∧ (f s o).status ≠ .cancelled ∧ (f s o).status ≠ .expired) :
    Keeps g (updateOrders p f) := by
  refine updateEach_within (R := fun s s' => g s' = g s) (fun _ => rfl) (fun _ _ _ hab hbc => hbc.trans hab)
    (fun _ r _ => orderPaidGuards_keeps g r _) (fun _ _ => update_keeps ho) fun s r _ => ?_
  obtain ⟨hpaid, hcancelled, hexpired⟩ := hf s r
  refine each_append (each_if fun hrel => (hrel.2.elim hcancelled hexpired).elim) (each_three ?_ ?_ ?_)
  · intro c u n v hholds
    refine congrArg g (updateEach_miss (fun h => ?_) hholds)
    rw [beq_false_of_ne hpaid, beq_false_of_ne hcancelled, beq_false_of_ne hexpired, Bool.or_self, Bool.or_self,
      Bool.and_false]
  · exact insert_keeps hr
  · exact update_keeps hr

structure Fresh (input : RefundRequest) (id : Id) (s : Db) : Prop where
  refund : ∀ r ∈ s.refunds.rows, r.id ≠ id ∧ r.idempotencyKey ≠ input.idempotencyKey
  wallet : ∀ w ∈ s.walletEntries.rows, w.idempotencyKey ≠ .walletRefund id
  reward : ∀ w ∈ s.rewardEntries.rows, w.idempotencyKey ≠ .reversal id

def balanceOf (k : Id) (s : Db) : Option Int := (s.users.get? k).map (·.balanceMinor)

theorem update_balance {p : Db → User → Bool} {f : Db → User → User} (k : Id)
    (hf : ∀ s u, p s u = true → (f s u).id = u.id ∧ (f s u).balanceMinor = u.balanceMinor) :
    Keeps (balanceOf k) (update Db.usersT p f) := by
  intro c s n t h
  obtain ⟨-, table, hrows, rfl⟩ := update_ok h
  have hget := Table.get?_map hrows (fun u => by
    by_cases hp : p s u = true
    · rw [if_pos hp]
      exact (hf s u hp).1
    · rw [if_neg hp]) k
  show (table.get? k).map _ = (s.users.get? k).map _
  rw [hget, Option.map_map]
  refine congrArg (fun g => Option.map g (s.users.get? k)) (funext fun u => ?_)
  show User.balanceMinor (if p s u = true then f s u else u) = u.balanceMinor
  by_cases hp : p s u = true
  · rw [if_pos hp]
    exact (hf s u hp).2
  · rw [if_neg hp]

theorem promotionRefund_balance (hcash : r.cashReturnMinor = 0) (hreward : r.rewardReturnMinor = 0) (k : Id) :
    ∀ st ∈ promotionRefund r, Keeps (balanceOf k) st := by
  have hnever : (decide ((0 : Int) < 0) || decide ((0 : Int) < 0)) = false := by decide
  intro st hst
  unfold promotionRefund at hst
  rw [hcash, hreward] at hst
  refine each_six ?_ ?_ ?_ ?_ ?_ ?_ _ hst
  · exact insert_off rfl
  · refine update_balance k fun s u hp => ?_
    rw [hnever, Bool.and_false] at hp
    cases hp
  · exact insert_off rfl
  · exact update_balance k fun _ _ _ => ⟨rfl, rfl⟩
  · exact insert_off rfl
  · exact update_off rfl

theorem credit_runs (hread : WalletRead order user s) (hfresh : Fresh input id s) :
    ∃ n t, batch [creditUser input order user, enterCredit input order user id] 0 s = .ok ([1, n], t) ∧
      balanceOf user.id t = some (user.balanceMinor + input.amountMinor) ∧
      (t.orders, t.refunds, t.events, t.rewardEntries) = (s.orders, s.refunds, s.events, s.rewardEntries) := by
  have huser := s.users.valid user (Table.get?_mem hread.user)
  have huser : (decide (0 ≤ user.balanceMinor) && decide (0 < user.balanceVersion)) = true := huser
  rw [Bool.and_eq_true, decide_eq_true_eq, decide_eq_true_eq] at huser
  obtain ⟨users, -, h1⟩ := update_runs (T := Db.usersT) (s := s)
    (p := fun s u => u.id == user.id && u.balanceVersion == user.balanceVersion &&
      s.orderIs order.id (orderCas order.id order.status order.version))
    (f := fun _ u => { u with
      balanceMinor := user.balanceMinor + input.amountMinor, balanceVersion := user.balanceVersion + 1 })
    (fun a _ b _ hab => by split <;> split <;> exact hab)
    (fun u hu => by
      split
      · show (decide (0 ≤ user.balanceMinor + (input.amountMinor : Int)) && decide (0 < user.balanceVersion + 1)) = true
        rw [Bool.and_eq_true, decide_eq_true_eq, decide_eq_true_eq]
        omega
      · exact s.users.valid u hu) 0
  generalize Db.usersT.set s users = s1 at h1
  obtain ⟨hn, ⟨table, rfl⟩, hget⟩ := creditUser_ok hread h1
  rw [hn] at h1
  have hrows : (Db.usersT.set s table).users.rows.filter (fun u => u.id == user.id &&
      u.balanceVersion == user.balanceVersion + 1 && u.balanceMinor == user.balanceMinor + input.amountMinor) =
        [{ user with
           balanceMinor := user.balanceMinor + input.amountMinor, balanceVersion := user.balanceVersion + 1 }] := by
    have hfilter := Table.filter_key (Db.usersT.set s table).users user.id fun u : User =>
      u.balanceVersion == user.balanceVersion + 1 && u.balanceMinor == user.balanceMinor + input.amountMinor
    rw [hget, Option.filter_some, if_pos (by rw [beq_self_eq_true, beq_self_eq_true]; rfl)] at hfilter
    rw [← Option.toList_some, ← hfilter]
    exact filter_congr fun u _ => Bool.and_assoc _ _ _
  have hentry := insert_one (T := Db.walletEntriesT) (s := Db.usersT.set s table)
    (g := fun s => (s.users.rows.filter fun u => u.id == user.id && u.balanceVersion == user.balanceVersion + 1 &&
      u.balanceMinor == user.balanceMinor + input.amountMinor).map (creditEntry input order user id))
    (congrArg (map _) hrows) 1
  obtain ⟨n, t, h2⟩ := hentry.mpr ⟨by
    show (decide (0 ≤ (input.amountMinor : Int)) && decide (0 ≤ user.balanceMinor) &&
      decide (0 ≤ user.balanceMinor + (input.amountMinor : Int))) = true
    rw [Bool.and_eq_true, Bool.and_eq_true, decide_eq_true_eq, decide_eq_true_eq, decide_eq_true_eq]
    omega, fun w hw => beq_false_of_ne (hfresh.wallet w hw)⟩
  refine ⟨n, t, ?_, ?_, ?_⟩
  · have h1 : creditUser input order user 0 s = .ok (1, Db.usersT.set s table) := h1
    have h2 : enterCredit input order user id 1 (Db.usersT.set s table) = .ok (n, t) := h2
    simp only [batch, h1, h2, Bind.bind, Except.bind]
  · obtain ⟨-, entries, -, rfl⟩ := insert_abort_ok h2
    show (table.get? user.id).map _ = _
    rw [show table.get? user.id = some _ from hget]
    rfl
  · obtain ⟨-, entries, -, rfl⟩ := insert_abort_ok h2
    rfl

theorem recordRefund_runs (reversal : Int) (now : Time) (horder : s.orders.get? order.id = some o)
    (hversion : o.version = order.version + 1) (hpos : 0 < input.amountMinor)
    (hnew : ∀ r ∈ s.refunds.rows, r.id ≠ id ∧ r.idempotencyKey ≠ input.idempotencyKey)
    (hentry : ∀ w ∈ s.rewardEntries.rows, w.idempotencyKey ≠ .reversal id) (c : Nat) :
    ∃ t, recordRefund input order reversal id now c s = .ok (1, t) ∧
      t.refunds.rows = s.refunds.rows ++ [walletRefundRow input order reversal id now o] ∧
      (∀ k, balanceOf k t = balanceOf k s) ∧ (t.orders, t.events) = (s.orders, s.events) := by
  have hg := fromOrder_some (p := fun o => o.version == order.version + 1) horder (beq_iff_eq.mpr hversion)
    (walletRefundRow input order reversal id now)
  have hinsert := insert_one (T := Db.refundsT) (s := s) (g := fun _ => [walletRefundRow input order reversal id now o])
    rfl 0
  obtain ⟨n, s1, h1⟩ := hinsert.mpr ⟨by
    show (decide (0 < input.amountMinor) && decide ((0 : Int) < input.amountMinor)) = true
    rw [Bool.and_eq_true, decide_eq_true_eq, decide_eq_true_eq]
    exact ⟨hpos, Int.natCast_pos.mpr hpos⟩, fun r hr => by
      obtain ⟨hid, hkey⟩ := hnew r hr
      show (r.id == id || r.idempotencyKey == input.idempotencyKey || (r.paymentAttemptId == none &&
        r.paymentAttemptId.isSome && r.providerRefundId == none && r.providerRefundId.isSome)) = false
      rw [beq_false_of_ne hid, beq_false_of_ne hkey]
      cases r.paymentAttemptId <;> rfl⟩
  obtain ⟨-, refunds, hrefunds, hs1⟩ := insert_abort_ok h1
  have hreward : s1.rewardEntries = s.rewardEntries := by rw [hs1]; rfl
  obtain ⟨ns, t, h2⟩ := promotionRefund_runs (r := walletRefundRow input order reversal id now o) (s := s1) rfl rfl
    (by rw [hreward]; exact hentry) 0
  have hbalance : ∀ k, balanceOf k t = balanceOf k s1 := fun k => batch_keeps (promotionRefund_balance rfl rfl k) h2
  have hkept := batch_keeps (g := fun s : Db => (s.orders, s.events, s.refunds))
    (promotionRefund_keeps (by constructor <;> exact fun _ _ => rfl) _) h2
  refine ⟨t, insertEach_one (fun r : Refund => if r.status = .succeeded then promotionRefund r else [])
    (g := fun s => s.fromOrder order.id (fun o => o.version == order.version + 1)
      (walletRefundRow input order reversal id now)) hg h1 h2 c, ?_, fun k => ?_, ?_⟩
  · rw [show t.refunds = s1.refunds from congrArg (·.2.2) hkept, hs1]
    exact hrefunds
  · rw [hbalance, hs1]
    rfl
  · rw [show t.orders = s1.orders from congrArg (·.1) hkept, show t.events = s1.events from congrArg (·.2.1) hkept, hs1]
    rfl

theorem VersionFree.clash {orderId : Id} {version : Nat} {ev new : ShopOrderEvent} (h : VersionFree orderId version s)
    (hev : ev ∈ s.events.rows) (hof : new.orderId = orderId) (hversion : new.orderVersion = some version)
    (hid : new.id = none) : Row.clash ev new = false := by
  show ((ev.orderId == new.orderId && ev.orderVersion == new.orderVersion && ev.orderVersion.isSome) ||
    (ev.id == new.id && ev.id.isSome)) = false
  rw [hof, hversion, hid]
  have hrandom : (ev.id == none && ev.id.isSome) = false := by
    cases ev.id <;> rfl
  rw [hrandom, Bool.or_false]
  by_cases hsame : ev.orderId = orderId
  · rw [beq_false_of_ne (h ev hev hsame), Bool.and_false]
    rfl
  · rw [beq_false_of_ne hsame]
    rfl

theorem recordEvent_runs (input : RefundRequest) (available : Int) (horder : s.orders.get? order.id = some o)
    (hversion : o.version = order.version + 1)
    (hmoves : order.status ≠ walletRefundStatus input order available)
    (hfree : VersionFree order.id (order.version + 1) s) (c : Nat) :
    ∃ n t, recordEvent input order available c s = .ok (n, t) := by
  have hid : o.id = order.id := Table.get?_key horder
  have hg := fromOrder_some (p := fun o => o.version == order.version + 1) horder (beq_iff_eq.mpr hversion)
    (walletRefundEvent input order available)
  exact (insert_one (T := Db.eventsT) hg c).mpr ⟨decide_eq_true hmoves, fun ev hev =>
    VersionFree.clash hfree hev hid (congrArg some hversion) rfl⟩

theorem fullRefund_runs (reversal : Int) (id : Id) (now : Time) {u : Db} (hread : WalletRead order user s) (hfull : (input.amountMinor : Int) = available)
    (hpos : 0 < input.amountMinor) (hstatus : order.status ≠ .refunded)
    (hfree : VersionFree order.id (order.version + 1) s) (hfresh : Fresh input id s) :
    ∃ ns t, batch (walletRefundBatch input order user available reversal id now
        (refundStatements order.id now none (closingReads u order.id))) 0 s = .ok (1 :: ns, t) ∧
      balanceOf user.id t = some (user.balanceMinor + input.amountMinor) ∧
      t.orders.get? order.id = some (setStatus .refunded (order.version + 1) now order) ∧
      t.refunds.rows = s.refunds.rows ++ [walletRefundRow input order reversal id now
        (setStatus .refunded (order.version + 1) now order)] := by
  have hnext : walletRefundStatus input order available = .refunded := if_pos hfull
  obtain ⟨n, s2, hcredit, hbalance, hkept⟩ := credit_runs hread hfresh
  simp only [Prod.mk.injEq] at hkept
  obtain ⟨horders, hrefunds, hevents, hrewards⟩ := hkept
  -- the order moves
  obtain ⟨n3, s3, hmove⟩ := orderUpdate_runs _ now (k := order.id) (v := order.version + 1) (s := s2)
    (p := fun s o => orderCas order.id order.status order.version o &&
      s.walletEntries.exist fun w => w.idempotencyKey == .walletRefund id)
    (fun o => Bool.and_assoc _ _ _) (Nat.succ_pos _)
    (by rw [hnext]; exact ⟨by decide, by decide, by decide⟩ : walletRefundStatus input order available ≠ .paid ∧
      walletRefundStatus input order available ≠ .cancelled ∧ walletRefundStatus input order available ≠ .expired)
    (([1, n] : List Nat).getLast?.getD 0)
  have hfirst : batch [creditUser input order user, enterCredit input order user id,
      moveRefunded input order available id now] 0 s = .ok ([1, n, n3], s3) := by
    show batch ([_, _] ++ [_]) 0 s = _
    rw [batch_append _ hcredit]
    simp only [batch, moveRefunded, hmove, Bind.bind, Except.bind, Except.map]
    rfl
  have horder := walletMoves_ok hread hfirst
  rw [hnext] at horder
  have hcalm := updateOrders_calm (g := fun s : Db => (balanceOf user.id s, s.refunds, s.events, s.rewardEntries)) (fun _ _ => rfl) (fun _ _ => rfl)
    (fun _ o => by rw [hnext]; exact ⟨(fun h => by cases h), (fun h => by cases h), (fun h => by cases h)⟩) _ _ _ _ hmove
  simp only [Prod.mk.injEq] at hcalm
  obtain ⟨hbalance3, hrefunds3, hevents3, hrewards3⟩ := hcalm
  -- the refund and its event
  obtain ⟨s4, hrefund, hrefunds4, hbalance4, hkept4⟩ := recordRefund_runs reversal now horder rfl
    hpos (by rw [hrefunds3, hrefunds]; exact hfresh.refund) (by rw [hrewards3, hrewards]; exact hfresh.reward) n3
  rw [Prod.mk.injEq] at hkept4
  obtain ⟨horders4, hevents4⟩ := hkept4
  rw [← horders4] at horder
  obtain ⟨n5, s5, hevent⟩ := recordEvent_runs input available horder rfl (by rw [hnext]; exact hstatus) (by
      show ∀ ev ∈ s4.events.rows, _
      rw [hevents4, hevents3, hevents]
      exact hfree) 1
  obtain ⟨-, events, -, rfl⟩ := insert_abort_ok hevent
  -- the close
  obtain ⟨ns, t, hclose⟩ := batch_total (closing_total u order.id now) n5 (Db.eventsT.set s4 events)
  have hkept5 := batch_keeps (closing_keeps (g := fun s : Db => (balanceOf user.id s, s.orders, s.refunds))
    (by constructor <;> exact fun _ _ => rfl) (fun _ _ => rfl) (fun _ _ => rfl) (fun _ _ => rfl) u order.id now) hclose
  simp only [Prod.mk.injEq] at hkept5
  obtain ⟨hbalance5, horders5, hrefunds5⟩ := hkept5
  refine ⟨n :: n3 :: 1 :: n5 :: ns, t, ?_, ?_, ?_, ?_⟩
  · rw [walletRefundBatch_eq, if_pos hnext, batch_append _ hfirst]
    show (batch (recordRefund input order reversal id now :: recordEvent input order available :: closing u order.id now)
      n3 s3).map _ = _
    simp only [batch, hrefund, hevent, hclose, Bind.bind, Except.bind, Except.map]
    rfl
  · rw [hbalance5, show balanceOf user.id (Db.eventsT.set s4 events) = balanceOf user.id s4 from rfl, hbalance4,
      hbalance3, hbalance]
  · rw [horders5]
    exact horder
  · rw [hrefunds5]
    show s4.refunds.rows = _
    rw [hrefunds4, hrefunds3, hrefunds]

end Effects

/-! ## The requests -/

def stillRefundable (s : Db) (orderId : Id) : Int :=
  ((s.orders.get? orderId).map fun o => (o.paidMinor : Int)).getD 0 - liveMinor s orderId

structure WalletPaid (orderId : Id) (order : ShopOrder) (user : User) (s : Db) : Prop where
  row : walletOrder s orderId = some (order, user)
  refundable : refundableStatus order.status = true

structure InRange (orderId : Id) (r : RefundRequest × RefundEnv) (s : Db) : Prop where
  order : r.1.orderId = orderId
  positive : 1 ≤ r.1.amountMinor
  within : (r.1.amountMinor : Int) ≤ stillRefundable s orderId
  fresh : Fresh r.1 r.2.uuid s

section Requests

variable {orderId : Id} {order : ShopOrder} {user : User} {input : RefundRequest} {e : RefundEnv} {s : Db}

theorem WalletPaid.orderRow (h : WalletPaid orderId order user s) : s.orders.get? orderId = some order := by
  have hrow := h.row
  simp only [walletOrder, Option.bind_eq_bind, Option.bind_eq_some_iff] at hrow
  obtain ⟨o, ho, u, -, hif⟩ := hrow
  split at hif
  · simp only [Option.some.injEq, Prod.mk.injEq] at hif
    rw [ho, hif.1]
  · cases hif

theorem WalletPaid.read (h : WalletPaid orderId order user s) : WalletRead order user s := by
  have hid : order.id = orderId := Table.get?_key h.orderRow
  refine ⟨by rw [hid]; exact h.orderRow, ?_⟩
  have hrow := h.row
  simp only [walletOrder, Option.bind_eq_bind, Option.bind_eq_some_iff] at hrow
  obtain ⟨o, ho, u, ⟨uid, -, hu⟩, hif⟩ := hrow
  split at hif
  · simp only [Option.some.injEq, Prod.mk.injEq] at hif
    obtain ⟨-, rfl⟩ := hif
    rw [show u.id = uid from Table.get?_key hu]
    exact hu
  · cases hif

theorem succeeded_le_live (s : Db) (orderId : Id) : succeededMinor s orderId ≤ liveMinor s orderId := by
  unfold succeededMinor liveMinor Table.sum
  exact sum_le_sum fun r _ => succeededWeight_le orderId r

theorem promotionRefundSplit_read (orderId : Id) (amountMinor : Minor) (s : Db) :
    (promotionRefundSplit (ℓ := Site) orderId amountMinor).alone s = alone (match splitOrder s orderId with
      | none => return none
      | some order => do
        let refunded ← Prog.query fun s => succeededRefunds s orderId
        match computeSplit order refunded amountMinor with
        | .error e => Prog.throw e
        | .ok split => return some split : Call Site (Option PromotionSplit)) s :=
  rfl

theorem promotionRefundSplit_alone (horder : s.orders.get? orderId = some order) (hpos : 1 ≤ input.amountMinor)
    (hwithin : (input.amountMinor : Int) ≤ stillRefundable s orderId) :
    ∃ split, (promotionRefundSplit (ℓ := Site) orderId input.amountMinor).alone s = (.ok (some split), s) := by
  have hle := succeeded_le_live s orderId
  unfold stillRefundable at hwithin
  rw [horder, Option.map_some, Option.getD_some] at hwithin
  have hsum : ((succeededRefunds s orderId).map fun r => (r.amountMinor : Int)).sum = succeededMinor s orderId :=
    succeeded_sum s orderId
  have hpos : (1 : Int) ≤ input.amountMinor := Int.ofNat_le.mpr hpos
  have hle : (succeededMinor s orderId : Int) ≤ liveMinor s orderId := Int.ofNat_le.mpr hle
  rw [promotionRefundSplit_read, show splitOrder s orderId = _ from congrArg (Option.map _) horder]
  show ∃ split, alone (match computeSplit _ (succeededRefunds s orderId) input.amountMinor with
    | .error e => _ | .ok split => _) s = _
  unfold computeSplit
  dsimp only
  rw [hsum, if_neg (by omega)]
  exact ⟨_, rfl⟩

theorem alone_require {α : Type} {p : Bool} (h : p = true) (err : DomainError) (k : Unit → Call Site α) (s : Db) :
    (require p err >>= k).alone s = (k ()).alone s := by
  unfold require
  rw [if_pos h]
  rfl

theorem revokeWhen_alone (full : Prop) [Decidable full] (orderId : Id) (now : Time) (s : Db) :
    (revokeWhen full orderId now none).alone s =
      (.ok (if full then refundStatements orderId now none (closingReads s orderId) else []), s) := by
  unfold revokeWhen
  by_cases hfull : full
  · rw [if_pos hfull, if_pos hfull, refundEntitlementGrantStatements_eq, alone_bind (refundReads_alone orderId s)]
    rfl
  · rw [if_neg hfull, if_neg hfull]
    rfl

theorem requestWalletShopRefund_alone (h : WalletPaid orderId order user s) (hin : InRange orderId (input, e) s) :
    ∃ reversal, (requestWalletShopRefund input e).alone s =
      if user.balanceMinor + input.amountMinor ≤ 9223372036854775807 then (do
          let results ← commit (.requestWalletShopRefund
              { orderId := order.id, orderStatus := order.status, orderVersion := order.version
                userId := user.id, balanceMinor := user.balanceMinor
                balanceVersion := user.balanceVersion, amountMinor := input.amountMinor
                fullRefund := (input.amountMinor : Int) == stillRefundable s order.id
                reversalMinor := reversal })
            (walletRefundBatch input order user (stillRefundable s order.id) reversal e.uuid e.now
              (if (input.amountMinor : Int) = stillRefundable s order.id then
                refundStatements order.id e.now none (closingReads s order.id) else []))
          require (1 ≤ results.headD 0) (walletConflict "Wallet changed; retry refund")
          return { id := e.uuid, report := .status .succeeded } : Call Site RefundReply).alone s
      else (.error (.thrown walletBalanceLimit), s) := by
  have hid : order.id = orderId := Table.get?_key h.orderRow
  obtain ⟨split, hsplit⟩ := promotionRefundSplit_alone h.orderRow hin.positive hin.within
  have hrow : walletOrder s input.orderId = some (order, user) := by
    rw [show input.orderId = orderId from hin.order]
    exact h.row
  have havailable : (order.paidMinor : Int) - ((reservedRefunds s order.id).map fun r => (r.amountMinor : Int)).sum =
      stillRefundable s order.id := by
    unfold stillRefundable
    rw [reserved_sum, hid, h.orderRow]
    rfl
  have hwithin : (input.amountMinor : Int) ≤ stillRefundable s order.id := by
    rw [hid]
    exact hin.within
  refine ⟨split.reversal, ?_⟩
  unfold requestWalletShopRefund
  rw [alone_query, hrow]
  dsimp only
  rw [alone_require h.refundable, alone_query, havailable, alone_require (decide_eq_true hwithin)]
  rw [show input.orderId = orderId from hin.order, alone_bind hsplit]
  by_cases hlimit : user.balanceMinor + input.amountMinor ≤ 9223372036854775807
  · rw [if_pos hlimit, alone_require (decide_eq_true hlimit), alone_bind (revokeWhen_alone _ _ _ _)]
    rfl
  · rw [if_neg hlimit, decide_eq_false hlimit]
    rfl

end Requests

def runRequest (r : RefundRequest × RefundEnv) (s : Db) : Except (Failure DomainError) RefundReply × Db :=
  (requestWalletShopRefund r.1 r.2).alone s

/-- The request succeeds, credits the wallet by its amount, and closes the order where nothing is left of it. -/
def DoesAsAsked (r : RefundRequest × RefundEnv) (s : Db) : Prop :=
  (runRequest r s).1 = .ok { id := r.2.uuid, report := .status .succeeded } ∧
    ∃ order user, walletOrder s r.1.orderId = some (order, user) ∧
      balanceOf user.id (runRequest r s).2 = some (user.balanceMinor + r.1.amountMinor) ∧
      ((runRequest r s).2.orders.get? order.id).map (·.status) =
        some (if liveMinor s order.id + r.1.amountMinor = order.paidMinor then .refunded else order.status)

/-- The request is for all that is left, and neither the balance nor the order's next version stands in its way. -/
def RefundsAll (r : RefundRequest × RefundEnv) (s : Db) : Prop :=
  (r.1.amountMinor : Int) = stillRefundable s r.1.orderId ∧
    ∀ row ∈ walletOrder s r.1.orderId, row.2.balanceMinor + r.1.amountMinor ≤ 9223372036854775807 ∧
      VersionFree row.1.id (row.1.version + 1) s

section Runs

variable {orderId : Id} {order : ShopOrder} {user : User} {r : RefundRequest × RefundEnv} {s : Db}

theorem refundsAll_does (h : WalletPaid orderId order user s) (hin : InRange orderId r s) (hall : RefundsAll r s) :
    DoesAsAsked r s ∧ stillRefundable (runRequest r s).2 orderId = 0 := by
  obtain ⟨input, e⟩ := r
  have hid : order.id = orderId := Table.get?_key h.orderRow
  have hrow : walletOrder s input.orderId = some (order, user) := by
    rw [show input.orderId = orderId from hin.order]
    exact h.row
  obtain ⟨hfull, hrest⟩ := hall
  obtain ⟨hlimit, hfree⟩ := hrest _ hrow
  have hfull : (input.amountMinor : Int) = stillRefundable s order.id := by
    rw [hid, ← hin.order]
    exact hfull
  have hrefundable : stillRefundable s order.id = order.paidMinor - liveMinor s order.id := by
    unfold stillRefundable
    rw [hid, h.orderRow]
    rfl
  have hstatus : order.status ≠ .refunded := by
    intro hrefunded
    have hopen := h.refundable
    rw [hrefunded] at hopen
    cases hopen
  obtain ⟨reversal, halone⟩ := requestWalletShopRefund_alone h hin
  obtain ⟨ns, t, hbatch, hbalance, horder, hrefunds⟩ := fullRefund_runs reversal e.uuid e.now (u := s)
    h.read hfull hin.positive hstatus hfree hin.fresh
  rw [if_pos hlimit, if_pos hfull, Prog.alone_bind (Prog.commit_alone hbatch)] at halone
  have hrun : runRequest (input, e) s = (.ok { id := e.uuid, report := .status .succeeded }, t) := halone
  have hlive : liveMinor t order.id = liveMinor s order.id + input.amountMinor := by
    unfold liveMinor Table.sum
    rw [hrefunds, map_append, sum_append]
    show _ + (liveWeight order.id (walletRefundRow input order reversal e.uuid e.now _) + 0) = _
    rw [Nat.add_zero]
    exact congrArg _ (if_pos ⟨rfl, rfl⟩)
  refine ⟨⟨by rw [hrun], order, user, hrow, by rw [hrun]; exact hbalance, ?_⟩, ?_⟩
  · have hclosed : liveMinor s order.id + input.amountMinor = order.paidMinor := by omega
    rw [hrun, if_pos hclosed]
    show (t.orders.get? order.id).map _ = _
    rw [horder]
    rfl
  · rw [hrun]
    unfold stillRefundable
    rw [← hid, hlive, show (t.orders.get? order.id) = _ from horder]
    show (order.paidMinor : Int) - _ = 0
    push_cast
    omega

theorem commit_alone_ok {x : Site} {sts : List (Stmt Db)} {t : Db}
    (h : (commit x sts : Call Site (List Nat)).alone s = (.ok ns, t)) : batch sts 0 s = .ok (ns, t) := by
  simp only [commit, alone] at h
  cases hb : batch sts 0 s with
  | error a =>
    rw [hb] at h
    cases h
  | ok res =>
    rw [hb] at h
    obtain ⟨ns', t'⟩ := res
    simp only [alone, Prod.mk.injEq, Except.ok.injEq] at h
    rw [h.1, h.2]

theorem doesAsAsked_iff (h : WalletPaid orderId order user s) (hin : InRange orderId r s) :
    DoesAsAsked r s ↔ RefundsAll r s := by
  refine ⟨fun hdoes => ?_, fun hall => (refundsAll_does h hin hall).1⟩
  obtain ⟨input, e⟩ := r
  have hid : order.id = orderId := Table.get?_key h.orderRow
  obtain ⟨reversal, halone⟩ := requestWalletShopRefund_alone h hin
  have hreply : ((requestWalletShopRefund input e).alone s).1 =
    .ok { id := e.uuid, report := .status .succeeded } := hdoes.1
  rw [halone] at hreply
  by_cases hlimit : user.balanceMinor + input.amountMinor ≤ 9223372036854775807
  · rw [if_pos hlimit] at hreply
    obtain ⟨ns, t, hcommit, -⟩ := alone_bind_ok (Prod.ext hreply rfl)
    obtain ⟨hfull, hfree⟩ := walletRefundBatch_ok h.read (commit_alone_ok hcommit)
    have horder : input.orderId = order.id := hin.order.trans hid.symm
    refine ⟨by rw [show (input, e).1.orderId = order.id from horder]; exact hfull, fun row hrow => ?_⟩
    have hrow : walletOrder s orderId = some row := by
      rw [← hin.order]
      exact hrow
    rw [h.row, Option.some.injEq] at hrow
    rw [← hrow]
    exact ⟨hlimit, hfree⟩
  · rw [if_neg hlimit] at hreply
    cases hreply

end Runs

def EachRequest (P : RefundRequest × RefundEnv → Db → Prop) : List (RefundRequest × RefundEnv) → Db → Prop
  | [], _ => True
  | r :: rs, s => P r s ∧ EachRequest P rs (runRequest r s).2

/-- Requests in range all do as asked exactly where each of them is for all that is left. -/
theorem wallet_refunds_whole {orderId : Id} {order : ShopOrder} {user : User} {s : Db}
    (rs : List (RefundRequest × RefundEnv)) (h : WalletPaid orderId order user s)
    (hin : EachRequest (InRange orderId) rs s) : EachRequest DoesAsAsked rs s ↔ EachRequest RefundsAll rs s := by
  cases rs with
  | nil => exact Iff.rfl
  | cons r rs =>
    obtain ⟨hhead, htail⟩ := hin
    have hiff := doesAsAsked_iff h hhead
    -- behind a refund of all that is left no request is in range
    have hlast : RefundsAll r s → rs = [] := by
      intro hall
      cases rs with
      | nil => rfl
      | cons next rest =>
        have hnone := (refundsAll_does h hhead hall).2
        have hwithin := htail.1.within
        have hpos : (1 : Int) ≤ next.1.amountMinor := Int.ofNat_le.mpr htail.1.positive
        rw [hnone] at hwithin
        omega
    constructor
    · rintro ⟨hdoes, -⟩
      have hall := hiff.mp hdoes
      rw [hlast hall]
      exact ⟨hall, trivial⟩
    · rintro ⟨hall, -⟩
      rw [hlast hall]
      exact ⟨hiff.mpr hall, trivial⟩

def walletPaidDb : Db where
  users := ⟨[{ id := 1, balanceVersion := 2 }], by decide, by decide⟩
  orders := ⟨[{ id := 10, userId := some 1, status := .paid, version := 2, totalMinor := 100, paidMinor := 100 }],
    by decide, by decide⟩
  walletEntries :=
    ⟨[{ userId := 1
        direction := .debit
        amountMinor := 100
        balanceBeforeMinor := 100
        balanceAfterMinor := 0
        sourceType := .shopOrder
        sourceId := 10
        idempotencyKey := .shopOrder 10 }], by decide, by decide⟩

def walletRequest (amountMinor : Minor) : RefundRequest × RefundEnv :=
  (⟨10, amountMinor, 1⟩, ⟨50, 7, fun _ => 2, false⟩)

theorem walletPaidDb_paid : ∃ order user, WalletPaid 10 order user walletPaidDb :=
  ⟨_, _, rfl, by decide⟩

theorem walletPaidDb_refundable : stillRefundable walletPaidDb 10 = 100 := by
  decide

theorem walletRequest_inRange (amountMinor : Minor) (h : 1 ≤ amountMinor) (hle : amountMinor ≤ 100) :
    InRange 10 (walletRequest amountMinor) walletPaidDb where
  order := rfl
  positive := h
  within := by
    have hle : (amountMinor : Int) ≤ 100 := by exact_mod_cast hle
    rw [walletPaidDb_refundable]
    exact hle
  fresh := by
    refine ⟨fun x hx => ?_, fun w hw => ?_, fun x hx => ?_⟩
    · cases (show x ∈ [] from hx)
    · rw [mem_singleton.mp (show w ∈ [_] from hw)]
      nofun
    · cases (show x ∈ [] from hx)

theorem wallet_refunds_whole_all : EachRequest RefundsAll [walletRequest 100] walletPaidDb ∧
    EachRequest DoesAsAsked [walletRequest 100] walletPaidDb := by
  obtain ⟨order, user, hpaid⟩ := walletPaidDb_paid
  have hall : EachRequest RefundsAll [walletRequest 100] walletPaidDb := by
    refine ⟨⟨?_, fun row hrow => ?_⟩, trivial⟩
    · rw [show stillRefundable walletPaidDb (walletRequest 100).1.orderId = 100 from walletPaidDb_refundable]
      rfl
    · rw [← Option.some.inj hrow]
      refine ⟨by decide, fun ev hev => ?_⟩
      cases (show ev ∈ [] from hev)
  exact ⟨hall, (wallet_refunds_whole [walletRequest 100] hpaid
    ⟨walletRequest_inRange 100 (by decide) le_rfl, trivial⟩).mpr hall⟩

/-- A refund of 40 out of 100 aborts. -/
theorem not_wallet_refunds_any : ¬∀ (orderId : Id) (order : ShopOrder) (user : User) (s : Db)
    (rs : List (RefundRequest × RefundEnv)), WalletPaid orderId order user s → EachRequest (InRange orderId) rs s →
      EachRequest DoesAsAsked rs s := by
  intro hclaim
  obtain ⟨order, user, hpaid⟩ := walletPaidDb_paid
  have hin := walletRequest_inRange 40 (by decide) (by decide)
  have hdoes := hclaim 10 order user walletPaidDb [walletRequest 40] hpaid ⟨hin, trivial⟩
  have hall := ((doesAsAsked_iff hpaid hin).mp hdoes.1).1
  exact absurd hall (by decide)

end Gmshop
