import GmshopEdge.Refunds.System
import GmshopEdge.Wallet.Books

/-!
# The wallet ledger is in order

Whatever calls move a wallet (admin entries, top-ups, orders paid from it, its reserves and their
release, refunds), its balance is the sum of its entries and each entry starts from the balance the one
before has left. A refund of a wallet payment writes its entry without asking whether its swap hit, so
this needs that the wallet has not been moved, by another call, to the very row the refund was about to
write (`walletSound`); every other writer asks. A refund from the balance needs that no part of it is
negative beside a positive one.
-/

namespace Gmshop

open List Sql Stmt Prog

/-! ## The property -/

def walletEntriesOf (s : Db) (userId : Id) : List WalletEntry :=
  s.walletEntries.rows.filter fun e => e.userId == userId

def walletSum (s : Db) (userId : Id) (direction : WalletDirection) : Int :=
  (((walletEntriesOf s userId).filter fun e => e.direction == direction).map (·.amountMinor)).sum

structure WalletIntegrity (s : Db) (u : User) : Prop where
  balance : u.balanceMinor = walletSum s u.id .credit - walletSum s u.id .debit
  nonneg : 0 ≤ u.balanceMinor
  chain : (walletEntriesOf s u.id).IsChain fun a b => b.balanceBeforeMinor = a.balanceAfterMinor
  keys : ∀ key, (s.walletEntries.rows.filter fun e => e.idempotencyKey == key).length ≤ 1

/-- The entries of every wallet lead from nothing to its balance. -/
def WalletBooks (s : Db) : Prop := cashAccount.Books s

def WalletEntry.delta (e : WalletEntry) : Int :=
  match e.direction with
  | .credit => e.amountMinor
  | .debit => -e.amountMinor

variable {a : Int} {s t u : Db} {revoke : List (Stmt Db)} {attempt : Nat} {id : Id} {now : Time}
  {input : RefundRequest} {ns : List Nat} {user : User} {order : ShopOrder}

theorem walletStep_delta {c : Int} {e : WalletEntry} (h : walletStep a e c) : c = a + e.delta := by
  obtain ⟨-, -, h⟩ := h
  rw [h]
  unfold WalletEntry.delta
  cases e.direction
  · rfl
  · exact Int.sub_eq_add_neg

theorem sum_delta (es : List WalletEntry) : (es.map WalletEntry.delta).sum =
    ((es.filter fun e => e.direction == .credit).map (·.amountMinor)).sum -
      ((es.filter fun e => e.direction == .debit).map (·.amountMinor)).sum := by
  induction es with
  | nil => rfl
  | cons e es ih =>
    cases hd : e.direction with
    | credit =>
      have hdelta : e.delta = e.amountMinor := by simp [WalletEntry.delta, hd]
      simp [hd, hdelta]
      omega
    | debit =>
      have hdelta : e.delta = -e.amountMinor := by simp [WalletEntry.delta, hd]
      simp [hd, hdelta]
      omega

theorem walletPath_chain {b : Int} {es : List WalletEntry} (h : Path walletStep a es b) :
    es.IsChain fun x y => y.balanceBeforeMinor = x.balanceAfterMinor := by
  induction es generalizing a with
  | nil => exact .nil
  | cons e es ih =>
    obtain ⟨c, hc, hrest⟩ := h
    cases es with
    | nil => exact .singleton e
    | cons e' es =>
      refine .cons_cons ?_ (ih hrest)
      obtain ⟨d, hd, -⟩ := hrest
      exact hd.1.trans hc.2.1.symm

theorem WalletBooks.integrity (h : WalletBooks s) {u : User} (hu : u ∈ s.users.rows) : WalletIntegrity s u where
  balance := by
    have hsum := Account.Books.sum (A := cashAccount) h (fun _ _ _ => walletStep_delta) hu
    exact hsum.trans (sum_delta _)
  nonneg := by
    have hvalid := s.users.valid u hu
    simp only [Row.valid, Bool.and_eq_true, decide_eq_true_eq] at hvalid
    exact hvalid.1
  chain := walletPath_chain (h u hu)
  keys key := by
    have hkeys := s.walletEntries.distinct.filter fun e => e.idempotencyKey == key
    generalize hes : s.walletEntries.rows.filter (fun e => e.idempotencyKey == key) = es at hkeys
    have hall : ∀ e ∈ es, e.idempotencyKey = key := fun e he => by
      rw [← hes] at he
      exact beq_iff_eq.mp (mem_filter.mp he).2
    match es with
    | [] => exact Nat.zero_le 1
    | [e] => exact Nat.le_refl 1
    | a :: b :: rest =>
      have hclash := (pairwise_cons.mp hkeys).1 b (by simp)
      simp [Row.clash, hall a (by simp), hall b (by simp)] at hclash

def rewardSum (s : Db) (userId : Id) : Int :=
  ((s.rewardEntries.rows.filter fun e => e.userId == userId).map (·.deltaMinor)).sum

theorem rewardBooks_sum (h : rewardAccount.Books s) {u : User} (hu : u ∈ s.users.rows) :
    u.rewardBalanceMinor = rewardSum s u.id :=
  Account.Books.sum (A := rewardAccount) h (fun _ _ _ hstep => hstep.2) hu

/-! ## The refund batches -/

/-- The condition: where a refund from the balance becomes `succeeded`, no part of it is negative beside
a positive one; and where a refund of a wallet payment commits, its customer's wallet is not at the
balance and the version that the refund's own swap would leave. -/
def moneySound (cash reward : Prop) (x : Site) (s : Db) : Prop :=
  match x with
  | .finalizeRefund refundId attempt status _ => status = .succeeded →
      ∀ r ∈ s.refunds.get? refundId, finalizable refundId attempt r = true → r.sound cash reward
  | .refundAllocatedBalance orderId status version parts =>
      s.orderIs orderId (fun o => o.status == status && o.version == version) = true →
        PartsSound cash reward parts.cashMinor parts.rewardMinor
  | .requestWalletShopRefund r => cash → ∀ u ∈ s.users.get? r.userId,
      ¬(u.balanceVersion = r.balanceVersion + 1 ∧ u.balanceMinor = r.balanceMinor + r.amountMinor)
  | _ => True

instance (cash reward : Prop) [Decidable cash] [Decidable reward] (x : Site) (s : Db) :
    Decidable (moneySound cash reward x s) := by
  casesm Site <;> dsimp only [moneySound] <;> infer_instance

variable {cash reward : Prop}

theorem CloseStmt.moves {st : Stmt Db} (h : CloseStmt st) : Within (MoneyMoves cash reward) st :=
  keeps_money (h.keeps (by constructor <;> exact fun _ _ => rfl))

theorem fullRefund_moves {orderId : Id} (hrevoke : ∀ st ∈ revoke, CloseStmt st) (full : Prop) [Decidable full] :
    ∀ st ∈ (if full then revoke ++ cancelOpenFulfillmentStatements orderId else []),
      Within (MoneyMoves cash reward) st := by
  intro st hst
  split at hst
  · rcases mem_append.mp hst with hst | hst
    · exact (hrevoke st hst).moves
    · exact (CloseStmt.cancel orderId st hst).moves
  · cases hst

theorem updateRefunds_open {p : Db → Refund → Bool} {f : Db → Refund → Refund}
    (hf : ∀ s r, (f s r).status ≠ .succeeded) : Within (MoneyMoves cash reward) (updateRefunds p f) :=
  fun _ _ _ _ h => updateRefunds_moves (fun r _ _ hs _ => absurd hs (hf _ r)) h

theorem refundOutbox_moves {refundId : Id} {type : OutboxType} {next : Time} {guard : Option RefundOutboxGuard} :
    Within (MoneyMoves cash reward) (refundOutboxStatement refundId type next attempt guard) :=
  keeps_money (insert_off rfl)

theorem orderSwap_hit {i version : Id} {st : ShopOrderStatus} {f : Db → ShopOrder → ShopOrder}
    (hf : ∀ s o, (f s o).id = o.id) {c : Nat}
    (h : updateOrders (fun _ o => orderCas i st version o) f c s = .ok (1, t)) :
    s.orderIs i (fun o => o.status == st && o.version == version) = true := by
  have hcount := (updateOrders_rows hf h).1
  have hkey : s.orders.count (fun o => o.id == i && (o.status == st && o.version == version)) =
      ((s.orders.get? i).filter fun o => o.status == st && o.version == version).toList.length :=
    Table.count_key s.orders i _
  rw [orderIs_iff]
  cases hfound : (s.orders.get? i).filter fun o => o.status == st && o.version == version with
  | none =>
    rw [hfound] at hkey
    exact absurd (hcount.trans hkey) (by simp)
  | some o => exact ⟨o, Option.filter_eq_some_iff.mp hfound⟩

theorem allocatedBatch_moves {split : PromotionSplit} (hrevoke : ∀ st ∈ revoke, CloseStmt st)
    (hsound : t.orderIs split.order.id (fun o => o.status == split.order.status &&
      o.version == split.order.version) = true → PartsSound cash reward split.cash split.reward)
    (hb : batch (allocatedBatch input split id now revoke) 0 t = .ok (ns, u)) :
    MoneyMoves cash reward t u := by
  obtain ⟨ns1, t3, ns2, hb, htail, -⟩ := batch_append_ok hb
  obtain ⟨n1, t1, n2, t2, n3, t3', h1, h2, h3, rfl⟩ := batch_three_ok hb
  have r2 : MoneyMoves cash reward t1 t2 := by
    refine insertRefund_moves (fun r hr _ => ?_) (onChanges_ok h2)
    split at hr
    · next hhit =>
      obtain ⟨o, -, rfl⟩ := mem_map.mp hr
      subst hhit
      exact hsound (orderSwap_hit (fun _ _ => by rfl) h1)
    · cases hr
  have r3 : MoneyMoves cash reward t2 t3' := keeps_money (insert_off rfl) _ _ _ _ h3
  exact (((updateOrders_moves _ _ _ _ _ _ h1).trans r2).trans r3).trans
    (batch_within .refl (fun _ _ _ => .trans) (fullRefund_moves hrevoke _) htail)

theorem walletRefund_swap {tu : Table User} {tw : Table WalletEntry}
    (hseen : ∀ u ∈ t.users.get? user.id, u.balanceVersion = user.balanceVersion → u.balanceMinor = user.balanceMinor)
    (hstray : cash → ∀ u ∈ t.users.get? user.id, ¬(u.balanceVersion = user.balanceVersion + 1 ∧
      u.balanceMinor = user.balanceMinor + input.amountMinor))
    (hu : tu.rows = t.users.rows.map fun u => if u.id == user.id && (u.balanceVersion ==
        user.balanceVersion && t.orderIs order.id (orderCas order.id order.status order.version)) then
      swapped (user.balanceMinor + input.amountMinor) user.balanceVersion u else u)
    (hw : tw.rows = t.walletEntries.rows ++ (tu.rows.filter fun u => u.id == user.id &&
      u.balanceVersion == user.balanceVersion + 1 &&
        u.balanceMinor == user.balanceMinor + input.amountMinor).map fun u =>
      { userId := u.id, direction := .credit, amountMinor := input.amountMinor
        balanceBeforeMinor := user.balanceMinor, balanceAfterMinor := u.balanceMinor
        sourceType := .refund, sourceId := order.id, idempotencyKey := .walletRefund id }) :
    MoneyMoves cash reward t { t with users := tu, walletEntries := tw } := by
  by_cases hcash : cash
  · refine swap_moves (e :=
        { userId := user.id, direction := .credit, amountMinor := input.amountMinor
          balanceBeforeMinor := user.balanceMinor
          balanceAfterMinor := user.balanceMinor + input.amountMinor
          sourceType := .refund, sourceId := order.id, idempotencyKey := .walletRefund id })
      hu (hw.trans (congrArg _ (swap_entries hu (q := fun u => u.balanceVersion ==
        user.balanceVersion + 1 && u.balanceMinor == user.balanceMinor + input.amountMinor)
        (fun u => ?_) (fun u hu hp => ?_) (fun u hu hp => ?_) fun u hid hbal => ?_)))
      (fun u hu hp => ?_) rfl
    · simp only [Bool.and_assoc]
    · simp [swapped]
    · have hnot := hstray hcash u hu
      rw [Bool.eq_false_iff]
      intro hq
      simp only [Bool.and_eq_true, beq_iff_eq] at hq
      exact hnot hq
    · rw [hid, hbal]
    · simp only [Bool.and_eq_true, beq_iff_eq] at hp
      refine ⟨hp.1, fun _ => ⟨(hseen u hu hp.1).symm, rfl, ?_⟩⟩
      rw [hseen u hu hp.1]
  · refine ⟨⟨_, hu, fun u => ?_⟩, fun hc => absurd hc hcash, fun _ => ?_⟩
    · split
      · next hp =>
        simp only [Bool.and_eq_true, beq_iff_eq] at hp
        exact .bump rfl (congrArg (· + 1) hp.2.1.symm)
      · exact .refl u
    · refine Account.Moves.still (A := rewardAccount) hu (fun u => ?_) (fun u => ?_) rfl
      · split <;> rfl
      · split <;> rfl

theorem walletRefundBatch_moves {available reversal : Int} (hrevoke : ∀ st ∈ revoke, CloseStmt st)
    (hseen : ∀ u ∈ t.users.get? user.id, u.balanceVersion = user.balanceVersion → u.balanceMinor = user.balanceMinor)
    (hstray : cash → ∀ u ∈ t.users.get? user.id, ¬(u.balanceVersion = user.balanceVersion + 1 ∧
      u.balanceMinor = user.balanceMinor + input.amountMinor))
    (hb : batch (walletRefundBatch input order user available reversal id now revoke) 0 t =
      .ok (ns, u)) : MoneyMoves cash reward t u := by
  unfold walletRefundBatch at hb
  obtain ⟨ns1, t5, ns2, hb, htail, -⟩ := batch_append_ok hb
  obtain ⟨n1, t1, n2, t2, n3, t3, n4, t4, n5, t5', h1, h2, h3, h4, h5, rfl⟩ := batch_five_ok hb
  have r2 : MoneyMoves cash reward t t2 := by
    obtain ⟨-, tu, hu, rfl⟩ := update_ok h1
    obtain ⟨-, tw, hw, rfl⟩ := insert_abort_ok h2
    simp only [Bool.and_assoc] at hu
    exact walletRefund_swap hseen hstray hu hw
  have r4 : MoneyMoves cash reward t3 t4 := by
    refine insertRefund_moves (fun r hr _ => ?_) h4
    obtain ⟨o, -, rfl⟩ := mem_map.mp hr
    exact ⟨fun _ => Or.inl (Int.le_refl 0), fun _ => Or.inl (Int.le_refl 0)⟩
  have r5 : MoneyMoves cash reward t4 t5' := keeps_money (insert_off rfl) _ _ _ _ h5
  exact (((r2.trans (updateOrders_moves _ _ _ _ _ _ h3)).trans r4).trans r5).trans
    (batch_within .refl (fun _ _ _ => .trans) (fullRefund_moves hrevoke _) htail)

theorem finalizeBatch_moves {refund : Refund} {status : RefundStatus} {code : Option RefundFailure}
    {paymentId : Option ProviderRefundId} {orderStatus : ShopOrderStatus} {close : List (Stmt Db)}
    (hclose : ∀ st ∈ close, CloseStmt st) (hsound : status = .succeeded → ∀ r ∈ t.refunds.get? refund.id,
      finalizable refund.id attempt r = true → r.sound cash reward)
    (hb : batch (finalizeBatch refund status code paymentId attempt orderStatus now close) 0 t =
      .ok (ns, u)) : MoneyMoves cash reward t u := by
  unfold finalizeBatch at hb
  obtain ⟨n1, t1, ms1, h1, hb, -⟩ := batch_cons_ok hb
  have r1 : MoneyMoves cash reward t t1 := by
    refine updateRefunds_moves (fun r hr hp hs _ => ?_) h1
    have hid : r.id = refund.id := by
      simp only [finalizable, Bool.and_eq_true, beq_iff_eq] at hp
      exact hp.1.1
    exact hsound hs r (Table.get?_eq_some_iff.mpr ⟨hr, hid⟩) hp
  refine r1.trans (batch_within .refl (fun _ _ _ => .trans) (fun st hst => ?_) hb)
  rcases mem_append.mp hst with hst | hst
  · exact each_three (updateOrders_moves _ _) (keeps_money (insert_off rfl)) refundOutbox_moves _ hst
  · exact (hclose st hst).moves

theorem requestBatch_moves {o : RefundableOrder} {paymentAmount : Int} {split : Option PromotionSplit}
    {manual : Bool} :
    ∀ st ∈ requestBatch input o paymentAmount split manual id now, Within (MoneyMoves cash reward) st := by
  intro st hst
  rcases mem_append.mp hst with hst | hst
  · rcases mem_append.mp hst with hst | hst
    · refine each_three ?_ ?_ ?_ _ hst
      · exact updateOrders_moves _ _
      · refine onChanges_within fun n c s m s' h => insertRefund_moves (fun r hr hs => ?_) h
        split at hr
        · obtain ⟨x, -, rfl⟩ := mem_map.mp hr
          dsimp only at hs
          split at hs <;> cases hs
        · cases hr
      · exact keeps_money (insert_off rfl)
    · split at hst
      · cases hst
      · rw [mem_singleton.mp hst]
        exact refundOutbox_moves
  · split at hst
    · cases hst
    · rw [mem_singleton.mp hst]
      exact keeps_money (update_off rfl)

theorem RefundBatch.moves {τ : Type} {S : Spec Db Site τ} {x : Site} {sts : List (Stmt Db)}
    (hkept : ∀ s t, S.rely ∅ s t → UsersKept s t) (h : RefundBatch S x sts t)
    (hc : moneySound cash reward x t) (hb : batch sts 0 t = .ok (ns, u)) : MoneyMoves cash reward t u := by
  have hall : (∀ st ∈ sts, Within (MoneyMoves cash reward) st) → MoneyMoves cash reward t u :=
    fun hsts => batch_within .refl (fun _ _ _ => .trans) hsts hb
  cases h with
  | request input o amount split manual e => exact hall requestBatch_moves
  | allocated input split e revoke hrevoke => exact allocatedBatch_moves hrevoke hc hb
  | wallet input order user available reversal e revoke hrevoke horder =>
    refine walletRefundBatch_moves hrevoke (seen_balance hkept ?_) hc hb
    obtain ⟨s, hi, hr, hs⟩ := horder
    refine ⟨s, hi, hr, ?_⟩
    simp only [walletOrder, Option.bind_eq_bind, Option.bind_eq_some_iff] at hs
    obtain ⟨o, -, x, ⟨id, -, hx⟩, hs⟩ := hs
    split at hs
    · cases hs
      rw [show user.id = id from Table.get?_key hx]
      exact hx
    · cases hs
  | retry refundId orderId now =>
    refine hall fun st hst => ?_
    exact each_three (updateOrders_moves _ _) (updateRefunds_open fun _ _ => by simp) (keeps_money (insert_off rfl)) _ hst
  | claim refundId count now =>
    refine hall fun st hst => ?_
    rw [mem_singleton.mp hst]
    exact updateRefunds_open fun _ _ => by simp
  | manualClaim refundId count =>
    refine hall fun st hst => ?_
    rw [mem_singleton.mp hst]
    exact keeps_money (update_off rfl)
  | schedule refundId paymentId attempt now =>
    refine hall fun st hst => ?_
    exact each_two (updateRefunds_open fun _ _ => by simp) refundOutbox_moves _ hst
  | providerFailure refundId attempt now =>
    refine hall fun st hst => ?_
    exact each_two (updateRefunds_open fun _ _ => by simp) refundOutbox_moves _ hst
  | manualReconciliation refundId attempt =>
    refine hall fun st hst => ?_
    rw [mem_singleton.mp hst]
    exact updateRefunds_open fun _ _ => by simp
  | finalize c status code paymentId attempt orderStatus now close hclose =>
    exact finalizeBatch_moves hclose hc hb

/-! ## The system -/

abbrev walletSound : Site → Db → Prop := moneySound True False

def walletSpec : Spec Db Site Empty :=
  Spec.ofRel WalletBooks walletSound (fun _ _ => True) UsersKept (fun _ => trivial) .refl fun _ _ _ => .trans

theorem moves_admits (hi : WalletBooks t) (h : MoneyMoves True False t u) : walletSpec.Admits ∅ ∅ t u :=
  Spec.admits_ofRel (Account.Books.step (A := cashAccount) hi (h.cash trivial)) trivial fun _ => h.users

theorem wallet_admitsShop : AdmitsShop walletSpec fun _ => True :=
  fun _ _ _ _ _ hb hi _ hbatch => moves_admits hi (hb.moves (fun _ _ h => h) hbatch)

theorem wallet_admitsRefund : AdmitsRefund walletSpec :=
  fun _ _ _ _ _ hb hi hc hbatch => moves_admits hi (hb.moves (fun _ _ h => h) hc hbatch)

/-- In every run whose refunds meet the condition every wallet is in order. -/
theorem wallet_integrity {s : Db} (h0 : WalletBooks s) {w : World Db Site DomainError Unit}
    (hrun : Runs moneyCode walletSound ⟨s, []⟩ w) {u : User} (hu : u ∈ w.db.users.rows) :
    WalletIntegrity w.db u := by
  have hgood := (Runs.sound walletSpec (fun c s _ => (moneyCode_bare wallet_admitsShop wallet_admitsRefund c
      (by rintro x -; cases x <;> trivial) s).ok) hrun (good_idle _ h0)).1
  exact WalletBooks.integrity hgood.1 hu

/-! ## Two runs -/

def walletBuyerDb : Db where
  users := .of [{ id := 1 }]
  orders := .of [{ id := 1, status := .pendingPayment, version := 1, totalMinor := 60, userId := some 1 }]

def walletRefundCall (orderId amountMinor key : Nat) : ShopCall ⊕ RefundCall :=
  .inr (.request ⟨orderId, amountMinor, key⟩ ⟨key, 9, fun _ => 2, false⟩)

def walletRun : World Db Site DomainError Unit :=
  World.exec moneyCode walletSound ⟨walletBuyerDb, []⟩ (oneByOne [.inl (.adjustWallet 1 .credit 100 1),
      .inl (.completeWallet 1 1 0 ⟨5, fun _ => ⟨1, 1, 1, 1⟩⟩), walletRefundCall 1 60 7] 20)

def twoWalletOrdersDb : Db where
  users := .of [{ id := 1, balanceVersion := 4 }]
  orders := .of [ { id := 1, status := .paid, version := 2, totalMinor := 10, paidMinor := 10, userId := some 1 },
    { id := 2, status := .paid, version := 2, totalMinor := 10, paidMinor := 10, userId := some 1 }]
  walletEntries := .of [
    { userId := 1, direction := .credit, amountMinor := 20, balanceBeforeMinor := 0, balanceAfterMinor := 20
      sourceType := .adjustment, sourceId := 1, idempotencyKey := .other 1 },
    { userId := 1, direction := .debit, amountMinor := 10, balanceBeforeMinor := 20, balanceAfterMinor := 10
      sourceType := .shopOrder, sourceId := 1, idempotencyKey := .shopOrder 1 },
    { userId := 1, direction := .debit, amountMinor := 10, balanceBeforeMinor := 10, balanceAfterMinor := 0
      sourceType := .shopOrder, sourceId := 2, idempotencyKey := .shopOrder 2 }]

def twoRefundsRun : World Db Site DomainError Unit :=
  World.exec moneyCode anySite ⟨twoWalletOrdersDb, []⟩
    ([Move.start (walletRefundCall 1 10 7), Move.start (walletRefundCall 2 10 8)] ++
      (List.replicate 20 [Move.run 0, Move.run 1]).flatten)

theorem wallet_integrity_walletRun :
    walletRun.db.users.rows = [{ id := 1, balanceMinor := 100, balanceVersion := 4 }] ∧
      ∀ u ∈ walletRun.db.users.rows, WalletIntegrity walletRun.db u := by
  have h0 : WalletBooks walletBuyerDb := by
    intro u hu
    rw [mem_singleton.mp hu]
    rfl
  have hrun : Runs moneyCode walletSound ⟨walletBuyerDb, []⟩ walletRun :=
    World.exec_runs moneyCode walletSound _ _
  exact ⟨by set_option maxRecDepth 50000 in decide, fun u hu => wallet_integrity h0 hrun hu⟩

/-- Two equal refunds side by side: one credit reaches the balance, both are on record. -/
theorem not_wallet_integrity :
    ¬∀ s, WalletBooks s → ∀ w : World Db Site DomainError Unit, Runs moneyCode anySite ⟨s, []⟩ w →
      ∀ u ∈ w.db.users.rows, WalletIntegrity w.db u := by
  intro h
  have h0 : WalletBooks twoWalletOrdersDb := by
    intro u hu
    rw [mem_singleton.mp hu]
    exact ⟨20, ⟨rfl, rfl, rfl⟩, 10, ⟨rfl, rfl, rfl⟩, 0, ⟨rfl, rfl, rfl⟩, rfl⟩
  have hrun : Runs moneyCode anySite ⟨twoWalletOrdersDb, []⟩ twoRefundsRun :=
    World.exec_runs moneyCode anySite _ _
  have hu : { id := 1, balanceMinor := 10, balanceVersion := 5 } ∈ twoRefundsRun.db.users.rows := by
    decide
  have hbalance := (h _ h0 _ hrun _ hu).balance
  have hcredit : walletSum twoRefundsRun.db 1 .credit = 40 := by decide
  have hdebit : walletSum twoRefundsRun.db 1 .debit = 20 := by decide
  rw [hcredit, hdebit] at hbalance
  exact absurd hbalance (by decide)

/-! ## Two points of a run -/

/-- Between two points of a run the ledger only grows, and every balance moves by what was added for it. -/
theorem balances_follow_ledger {s : Db} {w v : World Db Site DomainError Unit}
    (hrun : Runs ShopCall.code anySite ⟨s, []⟩ w) (hlater : Runs ShopCall.code anySite w v) :
    ∃ es, v.db.walletEntries.rows = w.db.walletEntries.rows ++ es ∧ ∀ u ∈ w.db.users.rows, ∃ u' ∈ v.db.users.rows,
      u'.id = u.id ∧ u'.balanceMinor = u.balanceMinor + ((es.filter (·.userId == u.id)).map WalletEntry.delta).sum := by
  have hmoves : MoneyMoves True False w.db v.db := ShopCall.later (f := fun c => c) (A := fun _ => True) .refl
    (fun _ _ _ => .trans) (by rintro (_ | _) <;> trivial) (fun h hb => h.moves (fun _ _ hm => MoneyMoves.users hm) hb) hrun hlater
  obtain ⟨f, es, hf, hkey, hes, hpath⟩ := hmoves.cash trivial
  refine ⟨es, hes, fun u hu => ⟨f u, ?_, hkey u, ?_⟩⟩
  · rw [show v.db.users.rows = _ from hf]
    exact mem_map_of_mem hu
  · exact @Path.sum _ walletStep _ (fun _ _ _ => walletStep_delta) _ _ _ (hpath u hu)

def boughtRun : World Db Site DomainError Unit :=
  World.exec ShopCall.code anySite ⟨walletBuyerDb, []⟩
    (oneByOne [.adjustWallet 1 .credit 100 1, .completeWallet 1 1 0 ⟨5, fun _ => ⟨1, 1, 1, 1⟩⟩] 20)

theorem balances_follow_ledger_boughtRun : ∃ es, boughtRun.db.walletEntries.rows = es ∧ es.length = 2 := by
  obtain ⟨es, hes, -⟩ := balances_follow_ledger (v := boughtRun) (s := walletBuyerDb) .refl (World.exec_runs _ _ _ _)
  exact ⟨es, hes, by rw [← show _ = es from hes]; set_option maxRecDepth 50000 in decide⟩

end Gmshop
