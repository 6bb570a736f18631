import GmshopEdge.Wallet.Integrity
import GmshopEdge.Lib.Checked

/-!
# The reward of a referral

An order that was referred earns its referrer a reward. It waits in the row of the order until it is
settled, and every refund of the order takes its share back, out of the row or out of the referrer's
balance. The shares are differences of `R * refunded / paid`, so they add up to it, as long as each is
the difference at the moment its refund succeeds. It is computed when the refund is requested, though;
`reversalSound` says that nothing has come between.
-/

namespace Gmshop

open List Sql Stmt Prog

/-! ## The property -/

def refundedSum (s : Db) (orderId : Id) (w : Refund → Int) : Int :=
  ((succeededRefunds s orderId).map w).sum

/-- The credit of an order's reward, or what a refund of the order has taken back. -/
def ofReward (s : Db) (orderId : Id) : RewardKey → Bool
  | .earned id => id == orderId
  | .reversal id => s.refunds.exist fun r => r.id == id && r.orderId == orderId
  | _ => false

/-- What a referrer was credited for an order, less what was taken back. -/
def netReward (s : Db) (orderId referrer : Id) : Int :=
  ((s.rewardEntries.rows.filter fun e =>
    e.userId == referrer && ofReward s orderId e.idempotencyKey).map (·.deltaMinor)).sum

def pendingReward (w : PromotionReward) : Int := if w.state = .pending then w.remainingMinor else 0

/-- What is credited of a reward: all that is left of it, once it is settled. -/
def creditedReward (w : PromotionReward) : Int := if w.state = .available then w.remainingMinor else 0

structure Referral where
  orderId : Id
  referrer : Id
  paidMinor : Minor
  rewardMinor : Minor

def Referral.share (q : Referral) (refunded : Int) : Int := q.rewardMinor * refunded / q.paidMinor

def KnownReversals (s : Db) : Prop :=
  ∀ e ∈ s.rewardEntries.rows, ∀ id, e.idempotencyKey = .reversal id → ∃ r ∈ s.refunds.rows, r.id = id

structure RewardRow (q : Referral) (s : Db) (w : PromotionReward) : Prop where
  userId : w.userId = some q.referrer
  amount : w.amountMinor = q.rewardMinor
  remaining : w.remainingMinor = q.rewardMinor - refundedSum s q.orderId (·.referralReversalMinor)
  credited : netReward s q.orderId q.referrer = creditedReward w
  reversed : w.state = .reversed → w.remainingMinor = 0

structure RewardInOrder (q : Referral) (s : Db) : Prop where
  referrer : ∃ u ∈ s.users.rows, u.id = q.referrer
  order : ∃ o, s.orders.get? q.orderId = some o ∧ o.paidMinor = q.paidMinor ∧
    o.referralRewardMinor = q.rewardMinor
  refunded : refundedSum s q.orderId (·.amountMinor) ≤ q.paidMinor
  reversed : refundedSum s q.orderId (·.referralReversalMinor) =
    q.share (refundedSum s q.orderId (·.amountMinor))
  known : KnownReversals s
  row : ∃ w, s.rewards.get? q.orderId = some w ∧ RewardRow q s w

variable {s s1 t u : Db} {st : Stmt Db} {i id orderId : Id} {r : Refund} {α : Type} {p : Db → Refund → Bool}
  {f : Db → Refund → Refund} {attempt c n : Nat} {ns : List Nat} {a v : Int} {w : PromotionReward}
  {now : Time} {g : Db → List Refund} {revoke : List (Stmt Db)} {input : RefundRequest}

theorem RewardInOrder.accounts {q : Referral} (h : RewardInOrder q s) : ∃ w, s.rewards.get? q.orderId = some w ∧
      netReward s q.orderId q.referrer + pendingReward w =
        q.rewardMinor - q.share (refundedSum s q.orderId (·.amountMinor)) := by
  obtain ⟨w, hw, hrow⟩ := h.row
  refine ⟨w, hw, ?_⟩
  rw [← h.reversed, ← hrow.remaining, hrow.credited]
  unfold creditedReward pendingReward
  cases hs : w.state with
  | pending => simp
  | available => simp
  | reversed => simp [hrow.reversed hs]

/-! ## Statements that leave the reward alone -/

/-- The order, its refunds, its reward and the entries of the reward stay. -/
structure RewardKept (q : Referral) (s t : Db) : Prop where
  users : UsersKept s t
  order : ∀ o, s.orders.get? q.orderId = some o → ∃ o', t.orders.get? q.orderId = some o' ∧
    o'.paidMinor = o.paidMinor ∧ o'.referralRewardMinor = o.referralRewardMinor
  refunds : succeededRefunds t q.orderId = succeededRefunds s q.orderId
  row : ∀ w, s.rewards.get? q.orderId = some w → ∃ w', t.rewards.get? q.orderId = some w' ∧
    w'.userId = w.userId ∧ w'.amountMinor = w.amountMinor ∧ w'.remainingMinor = w.remainingMinor ∧
    w'.state = w.state
  net : KnownReversals s → KnownReversals t ∧
    netReward t q.orderId q.referrer = netReward s q.orderId q.referrer

variable {q : Referral}

theorem RewardKept.refl (s : Db) : RewardKept q s s :=
  ⟨.refl s, fun o ho => ⟨o, ho, rfl, rfl⟩, rfl, fun w hw => ⟨w, hw, rfl, rfl, rfl, rfl⟩, fun h => ⟨h, rfl⟩⟩

theorem RewardKept.trans (h : RewardKept q s t) (h' : RewardKept q t u) : RewardKept q s u where
  users := h.users.trans h'.users
  order o ho := by
    obtain ⟨o1, ho1, hp1, hr1⟩ := h.order o ho
    obtain ⟨o2, ho2, hp2, hr2⟩ := h'.order o1 ho1
    exact ⟨o2, ho2, hp2.trans hp1, hr2.trans hr1⟩
  refunds := h'.refunds.trans h.refunds
  row w hw := by
    obtain ⟨w1, hw1, a1, b1, c1, d1⟩ := h.row w hw
    obtain ⟨w2, hw2, a2, b2, c2, d2⟩ := h'.row w1 hw1
    exact ⟨w2, hw2, a2.trans a1, b2.trans b1, c2.trans c1, d2.trans d1⟩
  net hs := by
    obtain ⟨ht, hnet⟩ := h.net hs
    obtain ⟨hu, hnet'⟩ := h'.net ht
    exact ⟨hu, hnet'.trans hnet⟩

theorem RewardInOrder.keep (h : RewardInOrder q s) (hk : RewardKept q s t) : RewardInOrder q t := by
  have hsum : ∀ w, refundedSum t q.orderId w = refundedSum s q.orderId w := by
    intro w
    unfold refundedSum
    rw [hk.refunds]
  obtain ⟨o, ho, hpaid, hreward⟩ := h.order
  obtain ⟨o', ho', hpaid', hreward'⟩ := hk.order o ho
  obtain ⟨w, hw, hrow⟩ := h.row
  obtain ⟨w', hw', huser, hamount, hremaining, hstate⟩ := hk.row w hw
  obtain ⟨hknown, hnet⟩ := hk.net h.known
  refine ⟨hk.users.mem h.referrer, ⟨o', ho', hpaid'.trans hpaid, hreward'.trans hreward⟩, ?_, ?_, hknown,
    w', hw', ⟨huser.trans hrow.userId, hamount.trans hrow.amount, ?_, ?_, fun hs => ?_⟩⟩
  · rw [hsum]
    exact h.refunded
  · rw [hsum, hsum]
    exact h.reversed
  · rw [hremaining, hsum]
    exact hrow.remaining
  · rw [hnet, hrow.credited]
    unfold creditedReward
    rw [hstate, hremaining]
  · rw [hremaining]
    exact hrow.reversed (hstate.symm.trans hs)

def rewardCore (s : Db) := (s.users, s.orders, s.refunds, s.rewards, s.rewardEntries)

theorem keeps_reward (h : Keeps rewardCore st) : Within (RewardKept q) st := by
  intro c s n t hs
  have hk := h c s n t hs
  simp only [rewardCore, Prod.mk.injEq] at hk
  obtain ⟨hu, ho, hr, hw, he⟩ := hk
  refine ⟨⟨id, by rw [hu, map_id], .refl⟩, fun o hget => ⟨o, by rw [ho]; exact hget, rfl, rfl⟩, ?_,
    fun w hget => ⟨w, by rw [hw]; exact hget, rfl, rfl, rfl, rfl⟩, fun hknown => ⟨?_, ?_⟩⟩
  · unfold succeededRefunds
    rw [hr]
  · unfold KnownReversals
    rw [he, hr]
    exact hknown
  · unfold netReward ofReward
    rw [he, hr]

/-! ### Users and reward entries -/

def RewardKey.ofReferral : RewardKey → Bool
  | .earned _ | .reversal _ => true
  | _ => false

theorem ofReward_other {key : RewardKey} (h : key.ofReferral = false) : ofReward s i key = false := by
  cases key with
  | earned id => cases h
  | reversal id => cases h
  | hold id => rfl
  | release id => rfl
  | refund id => rfl

theorem netReward_append {es : List RewardEntry} (ht : t.rewardEntries.rows = s.rewardEntries.rows ++ es)
    (hr : t.refunds = s.refunds) (i u : Id) :
    netReward t i u = netReward s i u +
      ((es.filter fun e => e.userId == u && ofReward s i e.idempotencyKey).map (·.deltaMinor)).sum := by
  have hof : ∀ key, ofReward t i key = ofReward s i key := by
    intro key
    unfold ofReward
    rw [hr]
  unfold netReward
  simp only [hof]
  rw [ht, filter_append, map_append, sum_append]

theorem usersRow_kept {p : Db → User → Bool} {f : Db → User → User}
    (hf : ∀ s u, p s u = true → UserLater u (f s u)) : Within (RewardKept q) (update Db.usersT p f) := by
  intro c s n t h
  obtain ⟨-, tu, hu, rfl⟩ := update_ok h
  refine ⟨⟨_, hu, fun u => ?_⟩, fun o ho => ⟨o, ho, rfl, rfl⟩, rfl, fun w hw => ⟨w, hw, rfl, rfl, rfl, rfl⟩,
    fun hknown => ⟨hknown, rfl⟩⟩
  split
  · next hp => exact hf s u hp
  · exact .refl u

theorem rewardEntries_kept {g : Db → List RewardEntry} (hg : ∀ s, ∀ e ∈ g s, e.idempotencyKey.ofReferral = false) :
    Within (RewardKept q) (insert Db.rewardEntriesT .abort g) := by
  intro c s n t h
  obtain ⟨-, tr, hr, rfl⟩ := insert_abort_ok h
  refine ⟨.refl s, fun o ho => ⟨o, ho, rfl, rfl⟩, rfl, fun w hw => ⟨w, hw, rfl, rfl, rfl, rfl⟩,
    fun hknown => ⟨fun e he id hid => ?_, ?_⟩⟩
  · rcases mem_append.mp (hr ▸ he : e ∈ s.rewardEntries.rows ++ g s) with he | he
    · exact hknown e he id hid
    · have hfalse := hg s e he
      rw [hid] at hfalse
      cases hfalse
  · rw [netReward_append (s := s) (t := Db.rewardEntriesT.set s tr) hr rfl, filter_eq_nil_iff.mpr, map_nil, sum_nil, Int.add_zero]
    intro e he hp
    rw [ofReward_other (hg s e he), Bool.and_false] at hp
    cases hp

/-! ### Holds and orders -/

theorem updateHolds_kept {p : Db → OrderBalanceHold → Bool}
    {f : Db → OrderBalanceHold → OrderBalanceHold} : Within (RewardKept q) (updateHolds p f) := by
  refine updateEach_within .refl (fun _ _ _ => .trans)
    (fun _ _ _ => forall_mem_singleton.mpr (keeps_reward abortWhen_keeps))
    (fun _ _ => keeps_reward (update_off rfl)) fun _ _ _ => each_if fun _ => each_three ?_ ?_ ?_
  · exact keeps_reward (insert_off rfl)
  · exact usersRow_kept fun _ _ _ => .bump rfl rfl
  · refine rewardEntries_kept fun s e he => ?_
    split at he
    · obtain ⟨u, -, rfl⟩ := mem_map.mp he
      rfl
    · cases he

theorem rewardRow_kept {p : Db → PromotionReward → Bool} {f : Db → PromotionReward → PromotionReward}
    (hf : ∀ s w, (f s w).orderId = w.orderId ∧ (f s w).userId = w.userId ∧
      (f s w).amountMinor = w.amountMinor ∧ (f s w).remainingMinor = w.remainingMinor ∧
      (f s w).state = w.state) : Within (RewardKept q) (update Db.rewardsT p f) := by
  intro c s n t h
  obtain ⟨-, tw, htw, rfl⟩ := update_ok h
  refine ⟨.refl s, fun o ho => ⟨o, ho, rfl, rfl⟩, rfl, fun w hw => ?_, fun hknown => ⟨hknown, rfl⟩⟩
  refine ⟨_, (Table.get?_map htw (fun r => ?_) q.orderId).trans (congrArg (Option.map _) hw), ?_⟩
  · split
    · exact (hf s r).1
    · rfl
  · dsimp only
    split
    · exact (hf s w).2
    · exact ⟨rfl, rfl, rfl, rfl⟩

theorem insertRewards_kept {c : OnConflict} {g : Db → List PromotionReward} :
    Within (RewardKept q) (insert Db.rewardsT c g) := by
  intro k s n t h
  obtain ⟨-, tw, htw, rfl⟩ := insert_ok h
  exact ⟨.refl s, fun o ho => ⟨o, ho, rfl, rfl⟩, rfl,
    fun w hw => ⟨w, Table.get?_append htw hw, rfl, rfl, rfl, rfl⟩, fun hknown => ⟨hknown, rfl⟩⟩

theorem rewardOrders_kept {p : Db → ShopOrder → Bool} {f : Db → ShopOrder → ShopOrder}
    (hf : ∀ s o, (f s o).id = o.id ∧ (f s o).paidMinor = o.paidMinor ∧
      (f s o).referralRewardMinor = o.referralRewardMinor) : Within (RewardKept q) (updateOrders p f) := by
  intro c s n t h
  refine updateEach_stored .refl (fun _ _ _ => .trans) (orderPaidGuards_keeps _)
    (orderTriggers_keep (by constructor <;> exact fun _ _ => rfl)) (fun old _ s1 s2 hmem h1 => ?_) h
  obtain ⟨ns1, t1, n1, t2, ns2, e1, e2, e3⟩ := updateRow_ok h1
  have r3 : RewardKept q t2 s2 := by
    refine batch_within .refl (fun _ _ _ => .trans) (fun st hst => ?_) e3
    rcases mem_append.mp hst with hst | hst
    · unfold promotionCouponRelease at hst
      split at hst
      · refine each_two ?_ ?_ _ hst
        · exact keeps_reward (update_off rfl)
        · exact keeps_reward (update_off rfl)
      · cases hst
    · refine each_three ?_ ?_ ?_ _ hst
      · exact updateHolds_kept
      · exact insertRewards_kept
      · exact rewardRow_kept fun _ _ => ⟨rfl, rfl, rfl, rfl, rfl⟩
  have hts : t1 = s1 := batch_keeps (g := fun s => s) (orderPaidGuards_keeps _ old _) e1
  subst hts
  obtain ⟨-, tord, hord, rfl⟩ := update_ok e2
  have r2 : RewardKept q t1 (Db.ordersT.set t1 tord) := by
    refine ⟨.refl t1, fun o ho => ?_, rfl, fun w hw => ⟨w, hw, rfl, rfl, rfl, rfl⟩, fun hknown => ⟨hknown, rfl⟩⟩
    refine ⟨_, (Table.get?_map hord (fun r => ?_) q.orderId).trans (congrArg (Option.map _) ho), ?_⟩
    · split
      · next hk => exact (hf s old).1.trans (beq_iff_eq.mp hk).symm
      · rfl
    · dsimp only
      split
      · next hk =>
        have hoo : o = old := Table.eq_of_key (Table.get?_mem ho) hmem (beq_iff_eq.mp hk)
        rw [hoo]
        exact (hf s old).2
      · exact ⟨rfl, rfl⟩
  exact r2.trans r3

/-! ### Refunds -/

theorem known_mapped {g : Refund → Refund} (ht : t.refunds.rows = s.refunds.rows.map g)
    (hg : ∀ r ∈ s.refunds.rows, (g r).id = r.id ∧ (g r).orderId = r.orderId)
    (he : t.rewardEntries = s.rewardEntries) (hknown : KnownReversals s) :
    KnownReversals t ∧ ∀ i u, netReward t i u = netReward s i u := by
  constructor
  · intro e hmem id hid
    rw [he] at hmem
    obtain ⟨r, hr, hrid⟩ := hknown e hmem id hid
    exact ⟨g r, by rw [ht]; exact mem_map_of_mem hr, (hg r hr).1.trans hrid⟩
  · have hof : ∀ i key, ofReward t i key = ofReward s i key := by
      intro i key
      cases key with
      | reversal id =>
        show t.refunds.rows.any _ = s.refunds.rows.any _
        rw [ht, any_map, Bool.eq_iff_iff, any_eq_true, any_eq_true]
        refine exists_congr fun r => and_congr_right fun hr => ?_
        rw [Function.comp_apply, (hg r hr).1, (hg r hr).2]
      | _ => rfl
    intro i u
    unfold netReward
    simp only [hof, he]

theorem known_append (ht : t.refunds.rows = s.refunds.rows ++ [r]) (he : t.rewardEntries = s.rewardEntries)
    (hknown : KnownReversals s) : KnownReversals t ∧ ∀ i u, netReward t i u = netReward s i u := by
  have hfree : s.refunds.get? r.id = none := Table.get?_append_free ht
  constructor
  · intro e hmem id hid
    rw [he] at hmem
    obtain ⟨x, hx, hxid⟩ := hknown e hmem id hid
    exact ⟨x, by rw [ht]; exact mem_append_left _ hx, hxid⟩
  · intro i u
    unfold netReward
    rw [he]
    refine congrArg (fun es : List RewardEntry => (es.map (·.deltaMinor)).sum)
      (filter_congr fun e hmem => congrArg _ ?_)
    cases hkey : e.idempotencyKey with
    | reversal id =>
      obtain ⟨x, hx, hxid⟩ := hknown e hmem id hkey
      have hne : r.id ≠ id := by
        intro h
        have hget : s.refunds.get? x.id = some x := Table.mem_get? hx
        rw [hxid, ← h, hfree] at hget
        cases hget
      show t.refunds.rows.any _ = s.refunds.rows.any _
      rw [ht, any_append]
      simp [hne]
    | _ => rfl

theorem filter_mapped {p : α → Bool} {g : α → α} {xs : List α}
    (h : ∀ x ∈ xs, g x = x ∨ p x = false ∧ p (g x) = false) : (xs.map g).filter p = xs.filter p := by
  induction xs with
  | nil => rfl
  | cons x xs ih =>
    have hrest := ih fun y hy => h y (mem_cons_of_mem _ hy)
    rw [map_cons, filter_cons, filter_cons, hrest]
    rcases h x mem_cons_self with hx | ⟨hx, hgx⟩
    · rw [hx]
    · simp [hx, hgx]

structure OpenMove (r r' : Refund) : Prop where
  id : r'.id = r.id
  orderId : r'.orderId = r.orderId
  before : r.status ≠ .succeeded
  after : r'.status ≠ .succeeded

theorem openRefunds_kept {g : Refund → Refund} (ht : t.refunds.rows = s.refunds.rows.map g)
    (hg : ∀ r ∈ s.refunds.rows, g r = r ∨ OpenMove r (g r))
    (h : (t.users, t.orders, t.rewards, t.rewardEntries) = (s.users, s.orders, s.rewards, s.rewardEntries)) :
    RewardKept q s t := by
  simp only [Prod.mk.injEq] at h
  obtain ⟨hu, ho, hw, he⟩ := h
  refine ⟨⟨id, by rw [hu, map_id], .refl⟩, fun o hget => ⟨o, by rw [ho]; exact hget, rfl, rfl⟩, ?_,
    fun w hget => ⟨w, by rw [hw]; exact hget, rfl, rfl, rfl, rfl⟩, fun hknown => ?_⟩
  · unfold succeededRefunds
    rw [ht]
    refine filter_mapped fun r hr => (hg r hr).imp id fun hm => ⟨?_, ?_⟩
    · simp [hm.before]
    · simp [hm.after]
  · have hids : ∀ r ∈ s.refunds.rows, (g r).id = r.id ∧ (g r).orderId = r.orderId := by
      intro r hr
      rcases hg r hr with hx | hm
      · rw [hx]
        exact ⟨rfl, rfl⟩
      · exact ⟨hm.id, hm.orderId⟩
    obtain ⟨hknown', hnet⟩ := known_mapped ht hids he hknown
    exact ⟨hknown', hnet _ _⟩

theorem updateRefunds_kept (hf : ∀ s r, p s r = true → OpenMove r (f s r)) :
    Within (RewardKept q) (updateRefunds p f) := by
  intro c s n t h
  refine updateEach_stored .refl (fun _ _ _ => .trans) (fun _ _ st hst => by cases hst)
    (fun old new st hst => ?_) (fun old hp s1 s2 hmem h1 => ?_) h
  · split at hst
    · exact promotionRefund_keeps (by constructor <;> exact fun _ _ => rfl) new st hst
    · cases hst
  obtain ⟨ns1, t1, n1, t2, ns2, e1, e2, e3⟩ := updateRow_ok h1
  rw [if_neg fun hs => (hf s old hp).after hs.1] at e3
  simp only [batch_nil, Except.ok.injEq, Prod.mk.injEq] at e1 e3
  obtain ⟨-, rfl⟩ := e1
  obtain ⟨-, rfl⟩ := e3
  obtain ⟨-, tr, htr, rfl⟩ := update_ok e2
  refine openRefunds_kept htr (fun r hr => ?_) rfl
  split
  · next hk =>
    have hro : r = old := Table.eq_of_key hr hmem (beq_iff_eq.mp hk)
    rw [hro]
    exact Or.inr (hf s old hp)
  · exact Or.inl rfl

theorem refundRow_kept (hf : ∀ r ∈ s.refunds.rows, p s r = true → OpenMove r (f s r))
    (h : update Db.refundsT p f c s = .ok (n, t)) : RewardKept q s t := by
  obtain ⟨-, tr, htr, rfl⟩ := update_ok h
  refine openRefunds_kept htr (fun r hr => ?_) rfl
  split
  · next hp => exact Or.inr (hf r hr hp)
  · exact Or.inl rfl

theorem newRefund_kept (ht : t.refunds.rows = s.refunds.rows ++ [r]) (hr : r.status ≠ .succeeded)
    (h : (t.users, t.orders, t.rewards, t.rewardEntries) = (s.users, s.orders, s.rewards, s.rewardEntries)) :
    RewardKept q s t := by
  simp only [Prod.mk.injEq] at h
  obtain ⟨hu, ho, hw, he⟩ := h
  refine ⟨⟨id, by rw [hu, map_id], .refl⟩, fun o hget => ⟨o, by rw [ho]; exact hget, rfl, rfl⟩, ?_,
    fun w hget => ⟨w, by rw [hw]; exact hget, rfl, rfl, rfl, rfl⟩, fun hknown => ?_⟩
  · unfold succeededRefunds
    rw [ht, filter_append]
    simp [hr]
  · obtain ⟨hknown', hnet⟩ := known_append ht he hknown
    exact ⟨hknown', hnet _ _⟩

/-! ## A refund succeeds -/

structure RefundAdded (r : Refund) (s t : Db) : Prop where
  core : (t.users, t.orders, t.rewards, t.rewardEntries) = (s.users, s.orders, s.rewards, s.rewardEntries)
  mem : r ∈ t.refunds.rows
  sums : ∀ i w, refundedSum t i w = refundedSum s i w + if r.orderId = i then w r else 0
  known : KnownReversals s → KnownReversals t ∧ ∀ i u, netReward t i u = netReward s i u

theorem RefundAdded.insert (hr : r.status = .succeeded) (ht : t.refunds.rows = s.refunds.rows ++ [r])
    (h : (t.users, t.orders, t.rewards, t.rewardEntries) = (s.users, s.orders, s.rewards, s.rewardEntries)) :
    RefundAdded r s t := by
  refine ⟨h, by rw [ht]; exact mem_append_right _ (mem_singleton_self r), fun i w => ?_,
    known_append ht (by simp only [Prod.mk.injEq] at h; exact h.2.2.2)⟩
  unfold refundedSum succeededRefunds
  rw [ht, filter_append, map_append, sum_append]
  by_cases hi : r.orderId = i
  · simp [hr, hi]
  · simp [hi]

theorem RefundAdded.row {old new : Refund} (hid : new.id = old.id) (horder : new.orderId = old.orderId)
    (hold : old.status ≠ .succeeded) (hnew : new.status = .succeeded) (hmem : old ∈ s.refunds.rows)
    (ht : t.refunds.rows = s.refunds.rows.map fun r => if KeyedRow.key r = KeyedRow.key old then new else r)
    (h : (t.users, t.orders, t.rewards, t.rewardEntries) = (s.users, s.orders, s.rewards, s.rewardEntries)) :
    RefundAdded new s t := by
  obtain ⟨xs, ys, hsplit, hmap⟩ := Table.split_key hmem
  have hrows : t.refunds.rows = xs ++ new :: ys := ht.trans (hmap fun _ => new)
  refine ⟨h, by rw [hrows]; simp, fun i w => ?_, known_mapped ht (fun r hr => ?_)
    (by simp only [Prod.mk.injEq] at h; exact h.2.2.2)⟩
  · unfold refundedSum succeededRefunds
    rw [hrows, hsplit]
    simp only [filter_append, map_append, sum_append]
    rw [filter_cons_of_neg (a := old) (by simp [hold])]
    by_cases hi : new.orderId = i
    · rw [filter_cons_of_pos (by simp [hi, hnew]), if_pos hi, map_cons, sum_cons]
      omega
    · rw [filter_cons_of_neg (by simp [hi]), if_neg hi, Int.add_zero]
  · split
    · next hk =>
      have hro : r = old := Table.eq_of_key hr hmem hk
      rw [hro]
      exact ⟨hid, horder⟩
    · exact ⟨rfl, rfl⟩

def takeBack (v : Int) (w : PromotionReward) : PromotionReward :=
  { w with
    remainingMinor := max 0 (w.remainingMinor - v)
    state := if w.remainingMinor ≤ v then .reversed else w.state }

def reversalEntries (r : Refund) (s : Db) (us : List User) : List RewardEntry :=
  if 0 < r.referralReversalMinor then (us.filter (refundReferrer r s)).map fun u =>
      { userId := u.id, deltaMinor := -r.referralReversalMinor, balanceAfterMinor := u.rewardBalanceMinor
        idempotencyKey := .reversal r.id }
  else []

structure RefundTaken (r : Refund) (s t : Db) : Prop where
  users : UsersKept s t
  orders : t.orders = s.orders
  refunds : t.refunds = s.refunds
  rewards : t.rewards.rows = s.rewards.rows.map fun w =>
    if w.orderId == r.orderId && decide (0 < r.referralReversalMinor) then
      takeBack r.referralReversalMinor w else w
  entries : ∃ (us : List User) (es : List RewardEntry),
    (∃ f : User → User, us = s.users.rows.map f ∧ ∀ u, UserLater u (f u)) ∧
    (∀ e ∈ es, e.idempotencyKey = .refund r.id) ∧
    t.rewardEntries.rows = s.rewardEntries.rows ++ (es ++ reversalEntries r s us)

theorem refundReturn_taken (hb : batch ((promotionRefund r).take 3) c s = .ok (ns, t)) :
    UsersKept s t ∧ (t.orders, t.refunds, t.rewards) = (s.orders, s.refunds, s.rewards) ∧
      ∃ es : List RewardEntry, (∀ e ∈ es, e.idempotencyKey = .refund r.id) ∧
        t.rewardEntries.rows = s.rewardEntries.rows ++ es := by
  simp only [promotionRefund, take_succ_cons, take_zero] at hb
  obtain ⟨n1, s1, n2, s2, n3, s3, h1, h2, h3, rfl⟩ := batch_three_ok hb
  obtain ⟨-, tw, -, rfl⟩ := insert_abort_ok h1
  obtain ⟨-, tu, hu, rfl⟩ := update_ok h2
  obtain ⟨-, tr, hr, rfl⟩ := insert_abort_ok h3
  refine ⟨⟨_, hu, fun u => ?_⟩, rfl, _, fun e he => ?_, hr⟩
  · split
    · exact .bump rfl rfl
    · exact .refl u
  · split at he
    · obtain ⟨u, -, rfl⟩ := mem_map.mp he
      rfl
    · cases he

theorem refundReversal_taken (hb : batch (((promotionRefund r).drop 3).take 2) c s = .ok (ns, t)) :
    UsersKept s t ∧ (t.orders, t.refunds, t.rewards) = (s.orders, s.refunds, s.rewards) ∧
      t.rewardEntries.rows = s.rewardEntries.rows ++ reversalEntries r s t.users.rows := by
  simp only [promotionRefund, take_succ_cons, take_zero, drop_succ_cons, drop_zero] at hb
  obtain ⟨n1, s1, n2, s2, h1, h2, rfl⟩ := batch_two_ok hb
  obtain ⟨-, tu, hu, rfl⟩ := update_ok h1
  obtain ⟨-, tr, hr, rfl⟩ := insert_abort_ok h2
  refine ⟨⟨_, hu, fun u => ?_⟩, rfl, hr⟩
  split
  · exact ⟨rfl, Nat.le_refl _, fun _ => rfl⟩
  · exact .refl u

theorem promotionRefund_taken (hb : batch (promotionRefund r) c s = .ok (ns, t)) : RefundTaken r s t := by
  have hsplit : promotionRefund r = (promotionRefund r).take 3 ++
      (((promotionRefund r).drop 3).take 2 ++ (promotionRefund r).drop 5) := by
    simp [promotionRefund]
  rw [hsplit] at hb
  obtain ⟨ns1, s1, ns2, hreturn, hb, -⟩ := batch_append_ok hb
  obtain ⟨ns3, s2, ns4, hreversal, hrewards, -⟩ := batch_append_ok hb
  obtain ⟨hu1, hk1, es, hes, he1⟩ := refundReturn_taken hreturn
  obtain ⟨hu2, hk2, he2⟩ := refundReversal_taken hreversal
  simp only [promotionRefund, drop_succ_cons, drop_zero] at hrewards
  obtain ⟨n3, s3, ms3, h3, hrewards, -⟩ := batch_cons_ok hrewards
  simp only [batch_nil, Except.ok.injEq, Prod.mk.injEq] at hrewards hk1 hk2
  obtain ⟨-, rfl⟩ := hrewards
  obtain ⟨-, tp, hp, rfl⟩ := update_ok h3
  obtain ⟨ho1, hr1, hw1⟩ := hk1
  obtain ⟨ho2, hr2, hw2⟩ := hk2
  have hrefers : refundReferrer r s1 = refundReferrer r s := by
    funext u
    unfold refundReferrer
    rw [hw1]
  obtain ⟨f, hf, hlater⟩ := hu1.trans hu2
  refine ⟨hu1.trans hu2, ho2.trans ho1, hr2.trans hr1, ?_, s2.users.rows, es, ⟨f, hf, hlater⟩, hes, ?_⟩
  · refine hp.trans ?_
    rw [show Db.rewardsT.get s2 = s.rewards from hw2.trans hw1]
    rfl
  · show s2.rewardEntries.rows = _
    rw [he2, he1, append_assoc]
    unfold reversalEntries
    rw [hrefers]

theorem RefundTaken.known (h : RefundTaken r s t) (hr : r ∈ s.refunds.rows) (hknown : KnownReversals s) :
    KnownReversals t := by
  obtain ⟨us, es, -, hes, hrows⟩ := h.entries
  intro e he id hid
  rw [h.refunds]
  rw [hrows] at he
  rcases mem_append.mp he with he | he
  · exact hknown e he id hid
  rcases mem_append.mp he with he | he
  · rw [hes e he] at hid
    cases hid
  · unfold reversalEntries at he
    split at he
    · obtain ⟨u, -, rfl⟩ := mem_map.mp he
      cases hid
      exact ⟨r, hr, rfl⟩
    · cases he

theorem RefundTaken.net (h : RefundTaken r s t) (hr : r ∈ s.refunds.rows) {u : Id}
    (hu : ∃ x ∈ s.users.rows, x.id = u) :
    (r.orderId ≠ i → netReward t i u = netReward s i u) ∧
    (r.orderId = i → ∀ w, s.rewards.get? i = some w → w.userId = some u → netReward t i u = netReward s i u -
        if w.state = .available ∧ 0 < r.referralReversalMinor then r.referralReversalMinor else 0) := by
  obtain ⟨us, es, ⟨f, hf, hlater⟩, hes, hrows⟩ := h.entries
  have hnone : (es.filter fun e => e.userId == u && ofReward s i e.idempotencyKey) = [] := by
    rw [filter_eq_nil_iff]
    intro e he
    rw [hes e he]
    simp [ofReward]
  have hnet := netReward_append hrows h.refunds i u
  rw [filter_append, hnone, nil_append] at hnet
  rw [hnet]
  constructor
  · intro hne
    rw [filter_eq_nil_iff.mpr, map_nil, sum_nil, Int.add_zero]
    intro e he hp
    unfold reversalEntries at he
    split at he
    · obtain ⟨x, -, rfl⟩ := mem_map.mp he
      rw [Bool.and_eq_true] at hp
      obtain ⟨y, hy, hyp⟩ := Table.exist_iff.mp hp.2
      rw [Bool.and_eq_true, beq_iff_eq, beq_iff_eq] at hyp
      have hyr : y = r := Table.eq_of_key hy hr hyp.1
      exact hne (hyr ▸ hyp.2)
    · cases he
  · intro hri w hw hwu
    -- the referrer is the one user whom the row names
    have hrefers : refundReferrer r s = fun x => decide (w.state = .available) && x.id == u := by
      funext x
      rw [Bool.eq_iff_iff, refundReferrer, Table.exist_iff, Bool.and_eq_true, decide_eq_true_eq, beq_iff_eq]
      constructor
      · rintro ⟨y, hy, hyp⟩
        simp only [Bool.and_eq_true, beq_iff_eq] at hyp
        have hyw : y = w := Table.eq_of_key hy (Table.get?_mem hw)
          (hyp.1.1.trans (hri.trans (Table.get?_key hw).symm))
        rw [hyw, hwu, Option.some.injEq] at hyp
        exact ⟨hyp.1.2, hyp.2.symm⟩
      · rintro ⟨hs, hx⟩
        refine ⟨w, Table.get?_mem hw, ?_⟩
        have hwi : w.orderId = i := Table.get?_key hw
        simp [hwi, hri, hs, hwu, hx]
    have hone : ∃ x, x.id = u ∧ us.filter (fun x => x.id == u) = [x] := by
      obtain ⟨x, hx, hfilter⟩ := users_with hu
      refine ⟨f x, (hlater x).id.trans hx, ?_⟩
      rw [hf, filter_map, show (fun x : User => x.id == u) ∘ f = fun x => x.id == u from
        funext fun x => by rw [Function.comp_apply, (hlater x).id], hfilter]
      rfl
    obtain ⟨x, hx, hfilter⟩ := hone
    unfold reversalEntries
    rw [hrefers]
    by_cases hv : 0 < r.referralReversalMinor
    · by_cases hs : w.state = .available
      · have hof : ofReward s i (.reversal r.id) = true :=
          Table.exist_iff.mpr ⟨r, hr, by simp [hri]⟩
        rw [if_pos hv, if_pos ⟨hs, hv⟩]
        simp [hs, hfilter, hx, hof, Int.sub_eq_add_neg]
      · rw [if_pos hv, if_neg fun h => hs h.1]
        simp [hs]
    · rw [if_neg hv, if_neg fun h => hv h.2]
      simp

/-! ### The shares add up -/

theorem Referral.share_mono (q : Referral) {b : Int} (h : a ≤ b) (hpos : 0 < q.paidMinor) : q.share a ≤ q.share b :=
  Int.ediv_le_ediv (Int.natCast_pos.mpr hpos) (Int.mul_le_mul_of_nonneg_left h (Int.natCast_nonneg _))

theorem Referral.share_le (q : Referral) (h : a ≤ q.paidMinor) (hpos : 0 < q.paidMinor) :
    q.share a ≤ q.rewardMinor := by
  have hpaid : q.share q.paidMinor = q.rewardMinor :=
    Int.mul_ediv_cancel _ (Int.natCast_ne_zero.mpr (Nat.ne_of_gt hpos))
  rw [← hpaid]
  exact q.share_mono h hpos

/-- A refund of `amount` that takes back the difference it makes. -/
structure ReversalFits (q : Referral) (s : Db) (amount v : Int) : Prop where
  paid : 0 < q.paidMinor
  nonneg : 0 ≤ amount
  le : refundedSum s q.orderId (·.amountMinor) + amount ≤ q.paidMinor
  eq : v = q.share (refundedSum s q.orderId (·.amountMinor) + amount) -
    refundedSum s q.orderId (·.referralReversalMinor)

theorem RewardInOrder.refund (h : RewardInOrder q s) (ha : RefundAdded r s s1) (hr : RefundTaken r s1 t)
    (hfits : r.orderId = q.orderId → ReversalFits q s r.amountMinor r.referralReversalMinor) :
    RewardInOrder q t := by
  obtain ⟨hu, ho, hw, he⟩ : s1.users = s.users ∧ s1.orders = s.orders ∧ s1.rewards = s.rewards ∧
      s1.rewardEntries = s.rewardEntries := by
    have hcore := ha.core
    simp only [Prod.mk.injEq] at hcore
    exact hcore
  obtain ⟨hknown, hnet⟩ := ha.known h.known
  have hsum : ∀ w, refundedSum t q.orderId w = refundedSum s q.orderId w +
      if r.orderId = q.orderId then w r else 0 := by
    intro w
    rw [← ha.sums]
    unfold refundedSum succeededRefunds
    rw [hr.refunds]
  have hreferrer : ∃ u ∈ s1.users.rows, u.id = q.referrer := by
    rw [hu]
    exact h.referrer
  obtain ⟨o, hget, hpaid, hreward⟩ := h.order
  obtain ⟨w, hwget, hrow⟩ := h.row
  obtain ⟨hother, hown⟩ := hr.net ha.mem hreferrer (i := q.orderId)
  have horder : ∃ o, t.orders.get? q.orderId = some o ∧ o.paidMinor = q.paidMinor ∧
      o.referralRewardMinor = q.rewardMinor := ⟨o, by rw [hr.orders, ho]; exact hget, hpaid, hreward⟩
  have hwt : t.rewards.get? q.orderId = some (if w.orderId == r.orderId &&
      decide (0 < r.referralReversalMinor) then takeBack r.referralReversalMinor w else w) := by
    rw [Table.get?_map hr.rewards (fun x => by split <;> rfl), hw, hwget]
    rfl
  have hwid : w.orderId = q.orderId := Table.get?_key hwget
  by_cases hi : r.orderId = q.orderId
  · obtain ⟨hpos, hnonneg, hle, hv⟩ := hfits hi
    simp only [if_pos hi] at hsum
    generalize hb : refundedSum s q.orderId (·.amountMinor) = before at hle hv hsum
    generalize hrev : refundedSum s q.orderId (·.referralReversalMinor) = reversed at hv
    have hreversed : reversed = q.share before := by rw [← hrev, ← hb]; exact h.reversed
    have hmono : q.share before ≤ q.share (before + r.amountMinor) := q.share_mono (by omega) hpos
    have hcap : q.share (before + r.amountMinor) ≤ q.rewardMinor := q.share_le hle hpos
    have hremaining : w.remainingMinor = q.rewardMinor - reversed := by rw [← hrev]; exact hrow.remaining
    have hnett := hown hi w (by rw [hw]; exact hwget) hrow.userId
    rw [hnet, hrow.credited] at hnett
    refine ⟨hr.users.mem hreferrer, horder, ?_, ?_, hr.known ha.mem hknown, _, hwt, ?_⟩
    · rw [hsum, hb]
      exact hle
    · rw [hsum, hsum, hb, hrev]
      omega
    · have hsumr : refundedSum t q.orderId (·.referralReversalMinor) =
          reversed + r.referralReversalMinor := by rw [hsum, hrev]
      by_cases hzero : 0 < r.referralReversalMinor
      · rw [if_pos (by simp [hwid, hi, hzero])]
        refine ⟨hrow.userId, hrow.amount, ?_, ?_, fun hs => ?_⟩
        · rw [hsumr]
          show max 0 (w.remainingMinor - r.referralReversalMinor) = _
          omega
        · rw [hnett]
          unfold creditedReward takeBack
          by_cases hs : w.state = .available
          · by_cases hall : w.remainingMinor ≤ r.referralReversalMinor
            · simp [hs, hzero, hall]
              omega
            · simp [hs, hzero, hall]
              omega
          · have hs' : (if w.remainingMinor ≤ r.referralReversalMinor then RewardState.reversed
                else w.state) ≠ .available := by split <;> simp [hs]
            simp only [if_neg hs, if_neg hs', if_neg fun hc : w.state = .available ∧
              0 < r.referralReversalMinor => hs hc.1]
            rfl
        · show max 0 (w.remainingMinor - r.referralReversalMinor) = 0
          have hs' : (if w.remainingMinor ≤ r.referralReversalMinor then RewardState.reversed
            else w.state) = .reversed := hs
          split at hs'
          · omega
          · have := hrow.reversed hs'
            omega
      · have hv0 : r.referralReversalMinor = 0 := by omega
        rw [if_neg (by simp [hzero])]
        refine ⟨hrow.userId, hrow.amount, ?_, ?_, hrow.reversed⟩
        · rw [hsumr, hv0, Int.add_zero]
          exact hremaining
        · rw [hnett, if_neg fun hc => hzero hc.2, Int.sub_zero]
  · have hsame : (w.orderId == r.orderId) = false := by
      rw [hwid]
      exact beq_false_of_ne (Ne.symm hi)
    simp only [if_neg hi, Int.add_zero] at hsum
    rw [if_neg (by simp [hsame])] at hwt
    refine ⟨hr.users.mem hreferrer, horder, ?_, ?_, hr.known ha.mem hknown, w, hwt,
      hrow.userId, hrow.amount, ?_, ?_, hrow.reversed⟩
    · rw [hsum]
      exact h.refunded
    · rw [hsum, hsum]
      exact h.reversed
    · rw [hsum]
      exact hrow.remaining
    · rw [hother hi, hnet]
      exact hrow.credited

/-! ## A reward is settled -/

structure RewardSettled (w : PromotionReward) (s t : Db) : Prop where
  users : UsersKept s t
  core : (t.orders, t.refunds, t.rewards) = (s.orders, s.refunds, s.rewards)
  entries : ∃ us : Table User, us.rows = t.users.rows ∧ t.rewardEntries.rows = s.rewardEntries.rows ++
    (us.rows.filter fun u => some u.id == w.userId).map fun u =>
      { userId := u.id, deltaMinor := w.remainingMinor, balanceAfterMinor := u.rewardBalanceMinor
        idempotencyKey := .earned w.orderId }

theorem promotionRewardCredit_settled {old new : PromotionReward} (hold : old.state = .pending)
    (hnew : new.state = .available) (hb : batch (promotionRewardCredit old new) c s = .ok (ns, t)) :
    RewardSettled new s t := by
  unfold promotionRewardCredit at hb
  rw [if_pos ⟨hold, hnew⟩] at hb
  obtain ⟨n1, s1, n2, s2, h1, h2, rfl⟩ := batch_two_ok hb
  obtain ⟨-, tu, hu, rfl⟩ := update_ok h1
  obtain ⟨-, tr, hr, rfl⟩ := insert_abort_ok h2
  refine ⟨⟨_, hu, fun u => ?_⟩, rfl, tu, rfl, hr⟩
  split
  · exact ⟨rfl, Nat.le_refl _, fun _ => rfl⟩
  · exact .refl u

theorem RewardInOrder.settle (hpending : w.state = .pending) (h : RewardInOrder q s)
    (hmem : w ∈ s.rewards.rows) (hrows : s1.rewards.rows = s.rewards.rows.map fun x =>
      if KeyedRow.key x = KeyedRow.key w then { w with state := .available } else x)
    (hcore : (s1.users, s1.orders, s1.refunds, s1.rewardEntries) = (s.users, s.orders, s.refunds, s.rewardEntries))
    (ht : RewardSettled { w with state := .available } s1 t) : RewardInOrder q t := by
  simp only [Prod.mk.injEq] at hcore
  obtain ⟨hu, ho, hf, he⟩ := hcore
  obtain ⟨ho', hf', hw'⟩ : t.orders = s1.orders ∧ t.refunds = s1.refunds ∧ t.rewards = s1.rewards := by
    have hcore := ht.core
    simp only [Prod.mk.injEq] at hcore
    exact hcore
  obtain ⟨us, hus, hes⟩ := ht.entries
  rw [he] at hes
  have husers : ∃ u ∈ t.users.rows, u.id = q.referrer := by
    refine ht.users.mem ?_
    rw [hu]
    exact h.referrer
  have hsum : ∀ c, refundedSum t q.orderId c = refundedSum s q.orderId c := by
    intro c
    unfold refundedSum succeededRefunds
    rw [hf', hf]
  have hnet := netReward_append hes (hf'.trans hf) q.orderId q.referrer
  obtain ⟨o, hget, hpaid, hreward⟩ := h.order
  obtain ⟨x, hxget, hrow⟩ := h.row
  have hxt : t.rewards.get? q.orderId = some (if KeyedRow.key x = KeyedRow.key w then
      { w with state := .available } else x) := by
    rw [hw', Table.get?_map hrows (fun y => by
      split
      · next hk => exact hk.symm
      · rfl), hxget]
    rfl
  have hxid : x.orderId = q.orderId := Table.get?_key hxget
  refine ⟨husers, ⟨o, by rw [ho', ho]; exact hget, hpaid, hreward⟩, ?_, ?_, ?_, _, hxt, ?_⟩
  · rw [hsum]
    exact h.refunded
  · rw [hsum, hsum]
    exact h.reversed
  · intro e hmem' id hid
    rw [hf', hf]
    rw [hes] at hmem'
    rcases mem_append.mp hmem' with hmem' | hmem'
    · exact h.known e hmem' id hid
    · obtain ⟨u, -, rfl⟩ := mem_map.mp hmem'
      cases hid
  · by_cases hk : KeyedRow.key x = KeyedRow.key w
    · have hxw : x = w := Table.eq_of_key (Table.get?_mem hxget) hmem hk
      subst hxw
      rw [if_pos rfl]
      refine ⟨hrow.userId, hrow.amount, ?_, ?_, fun hs => by cases hs⟩
      · rw [hsum]
        exact hrow.remaining
      · obtain ⟨u, huid, hfilter⟩ := users_with (t := us) (by rw [hus]; exact husers)
        have hname : ∀ y : User, (some y.id == x.userId) = (y.id == q.referrer) := by
          intro y
          rw [hrow.userId]
          rfl
        have hzero : creditedReward x = 0 := by
          unfold creditedReward
          rw [hpending]
          rfl
        rw [hnet, hrow.credited, hzero, Int.zero_add]
        simp only [hname, hfilter]
        simp [huid, ofReward, hxid, creditedReward]
    · rw [if_neg hk]
      refine ⟨hrow.userId, hrow.amount, ?_, ?_, hrow.reversed⟩
      · rw [hsum]
        exact hrow.remaining
      · have hne : (w.orderId == q.orderId) = false :=
          beq_false_of_ne fun h => hk (hxid.trans h.symm)
        rw [hnet, filter_eq_nil_iff.mpr, map_nil, sum_nil, Int.add_zero]
        · exact hrow.credited
        · intro e hmem' hp
          obtain ⟨u, -, rfl⟩ := mem_map.mp hmem'
          simp [ofReward, hne] at hp

theorem settleStatement_reward (h : settleStatement orderId now c s = .ok (n, t)) (hi : RewardInOrder q s) :
    RewardInOrder q t := by
  have hcredit : ∀ a b, ∀ st ∈ promotionRewardCredit a b, Keeps (fun s => (Db.rewardsT.get s).rows) st := by
    intro a b st hst
    unfold promotionRewardCredit at hst
    split at hst
    · exact each_two (update_off rfl) (insert_off rfl) _ hst
    · cases hst
  unfold settleStatement updateRewards at h
  refine updateEach_stored (R := fun s t => RewardInOrder q s → RewardInOrder q t) (fun _ => id)
    (fun _ _ _ hab hbc hi => hbc (hab hi)) (fun _ _ st hst => by cases hst) hcredit
    (fun w hp s1 s2 hmem h1 hi1 => ?_) h hi
  obtain ⟨ns1, t1, n1, t2, ns2, e1, e2, e3⟩ := updateRow_ok h1
  obtain ⟨-, rfl⟩ := batch_nil_ok e1
  obtain ⟨-, tw, htw, rfl⟩ := update_ok e2
  have hpending : w.state = .pending := by
    simp only [settleable, Bool.and_eq_true, beq_iff_eq] at hp
    exact hp.2.1.1.1
  refine hi1.settle hpending hmem ?_ (by rfl) (promotionRewardCredit_settled hpending rfl e3)
  refine htw.trans (map_congr_left fun x _ => ?_)
  by_cases hk : KeyedRow.key x = KeyedRow.key w
  · rw [if_pos (beq_iff_eq.mpr hk), if_pos hk]
  · rw [if_neg (by simpa using hk), if_neg hk]

/-! ## The condition -/

/-- What `promotionRefundSplit` would take back for a refund of the order now. -/
def reversalNow (s : Db) (orderId : Id) (amountMinor : Minor) : Option Int :=
  (splitOrder s orderId).bind fun order =>
    match computeSplit order (succeededRefunds s orderId) amountMinor with
    | .ok split => some split.reversal
    | .error _ => none

/-- The condition: a refund of the order that becomes `succeeded` takes back what it would take back
were it computed now, and a new refund has an id of its own. -/
def reversalSound (orderId : Id) (x : Site) (s : Db) : Prop :=
  match x with
  | .requestShopRefund _ refundId => s.refunds.get? refundId = none
  | .finalizeRefund refundId attempt status _ => status = .succeeded →
      ∀ r ∈ s.refunds.get? refundId, finalizable refundId attempt r = true → r.orderId = orderId →
        reversalNow s orderId r.amountMinor = some r.referralReversalMinor
  | .refundAllocatedBalance id status version parts => id = orderId →
      s.orderIs id (fun o => o.status == status && o.version == version) = true →
        reversalNow s orderId parts.amountMinor = some parts.reversalMinor
  | .requestWalletShopRefund r => r.orderId = orderId →
      s.orderIs r.orderId (fun o => (o.status == r.orderStatus && o.version == r.orderVersion) ||
        o.version == r.orderVersion + 1) = true →
        reversalNow s orderId r.amountMinor = some r.reversalMinor
  | _ => True

instance (orderId : Id) (x : Site) (s : Db) : Decidable (reversalSound orderId x s) := by
  casesm Site <;> dsimp only [reversalSound] <;> infer_instance

theorem reversalNow_fits (h : RewardInOrder q s) {amountMinor : Minor}
    (hv : reversalNow s q.orderId amountMinor = some v) : ReversalFits q s amountMinor v := by
  obtain ⟨o, hget, hpaid, hreward⟩ := h.order
  simp only [reversalNow, splitOrder, hget, Option.map_some, Option.bind_some] at hv
  unfold computeSplit at hv
  dsimp only at hv
  split at hv
  · next split hsplit =>
    split at hsplit
    · cases hsplit
    · next hc =>
      simp only [not_or, Int.not_le, Int.not_lt] at hc
      obtain ⟨hpos, hdelta, hle⟩ := hc
      simp only [Except.ok.injEq] at hsplit
      subst hsplit
      simp only [Option.some.injEq] at hv
      have hbefore : 0 ≤ refundedSum s q.orderId (·.amountMinor) := by
        unfold refundedSum
        exact sum_nonneg fun x hx => by
          obtain ⟨r, -, rfl⟩ := mem_map.mp hx
          exact Int.natCast_nonneg _
      rw [hpaid] at hpos hle hv
      rw [hreward] at hv
      refine ⟨Int.natCast_pos.mp hpos, Int.natCast_nonneg _, hle, ?_⟩
      rw [← hv, Int.tdiv_eq_ediv_of_nonneg]
      · rfl
      · exact Int.mul_nonneg (Int.natCast_nonneg _) (Int.add_nonneg hbefore (Int.natCast_nonneg _))
  · cases hv

/-! ## The batches -/

theorem ReversalFits.keep (hk : RewardKept q s t) {amount : Int} (h : ReversalFits q s amount v) :
    ReversalFits q t amount v := by
  have hsum : ∀ w, refundedSum t q.orderId w = refundedSum s q.orderId w := by
    intro w
    unfold refundedSum
    rw [hk.refunds]
  refine ⟨h.paid, h.nonneg, ?_, ?_⟩
  · rw [hsum]
    exact h.le
  · rw [hsum, hsum]
    exact h.eq

theorem fromOrder_cases (s : Db) (i : Id) (p : ShopOrder → Bool) (g : ShopOrder → α) : s.fromOrder i p g = [] ∨
      ∃ o, s.orders.get? i = some o ∧ p o = true ∧ s.fromOrder i p g = [g o] := by
  cases hget : (s.orders.get? i).filter p with
  | none =>
    refine Or.inl (fromOrder_none (fun o ho => ?_) g)
    rw [ho] at hget
    simpa using hget
  | some o =>
    obtain ⟨ho, hp⟩ := Option.filter_eq_some_iff.mp hget
    exact Or.inr ⟨o, ho, hp, fromOrder_some ho hp g⟩

section

variable (h : insertRefund g c s = .ok (n, t))
include h

theorem insertRefund_cases (hg : g s = [] ∨ ∃ r, g s = [r]) :
    t = s ∨ ∃ r s1 ns, g s = [r] ∧ s1.refunds.rows = s.refunds.rows ++ [r] ∧
      (s1.users, s1.orders, s1.rewards, s1.rewardEntries) = (s.users, s.orders, s.rewards, s.rewardEntries) ∧
      batch (if r.status = .succeeded then promotionRefund r else []) 0 s1 = .ok (ns, t) := by
  have hrows := (insertEach_ok h).2
  rcases hg with hg | ⟨r, hg⟩
  · rw [hg] at hrows
    simp only [insertRows, Except.ok.injEq] at hrows
    exact Or.inl hrows.symm
  · rw [hg] at hrows
    obtain ⟨n1, s1, ns, s2, h1, h2, h3⟩ := insertRows_cons_ok hrows
    simp only [insertRows, Except.ok.injEq] at h3
    subst h3
    obtain ⟨-, tr, htr, rfl⟩ := insert_abort_ok h1
    exact Or.inr ⟨r, Db.refundsT.set s tr, ns, hg, htr, rfl, h2⟩

theorem insertRefund_reward (hg : g s = [] ∨ ∃ r, g s = [r] ∧ r.status = .succeeded ∧
      (r.orderId = q.orderId → ReversalFits q s r.amountMinor r.referralReversalMinor)) (hi : RewardInOrder q s) :
    RewardInOrder q t := by
  rcases insertRefund_cases h (hg.imp id fun ⟨r, hr, _⟩ => ⟨r, hr⟩) with rfl | ⟨r, s1, ns, hr, hrows, hcore, hb⟩
  · exact hi
  · rcases hg with hg | ⟨r', hr', hs, hfits⟩
    · rw [hg] at hr
      cases hr
    · rw [hr] at hr'
      cases hr'
      rw [if_pos hs] at hb
      exact hi.refund (.insert hs hrows hcore) (promotionRefund_taken hb) hfits

theorem insertRefund_open (hg : g s = [] ∨ ∃ r, g s = [r] ∧ r.status ≠ .succeeded) :
    RewardKept q s t ∧ ∀ r ∈ t.refunds.rows, r ∈ s.refunds.rows ∨ r.status ≠ .succeeded := by
  rcases insertRefund_cases h (hg.imp id fun ⟨r, hr, _⟩ => ⟨r, hr⟩) with rfl | ⟨r, s1, ns, hr, hrows, hcore, hb⟩
  · exact ⟨.refl _, fun r hr => Or.inl hr⟩
  · rcases hg with hg | ⟨r', hr', hs⟩
    · rw [hg] at hr
      cases hr
    · rw [hr] at hr'
      cases hr'
      rw [if_neg hs] at hb
      obtain ⟨-, rfl⟩ := batch_nil_ok hb
      refine ⟨newRefund_kept hrows hs hcore, fun x hx => ?_⟩
      rw [hrows] at hx
      refine (mem_append.mp hx).imp (fun h => h) fun hx => ?_
      rw [mem_singleton.mp hx]
      exact hs

end

theorem CloseStmt.rewardKept (h : CloseStmt st) : Within (RewardKept q) st :=
  keeps_reward (h.keeps (by constructor <;> exact fun _ _ => rfl))

section

variable (hrevoke : ∀ st ∈ revoke, CloseStmt st)
include hrevoke

theorem fullRefund_rewardKept (full : Prop) [Decidable full] :
    ∀ st ∈ (if full then revoke ++ cancelOpenFulfillmentStatements orderId else []), Within (RewardKept q) st := by
  intro st hst
  split at hst
  · rcases mem_append.mp hst with hst | hst
    · exact (hrevoke st hst).rewardKept
    · exact (CloseStmt.cancel orderId st hst).rewardKept
  · cases hst

theorem allocatedBatch_reward {split : PromotionSplit}
    (hsound : split.order.id = q.orderId → t.orderIs split.order.id (fun o =>
      o.status == split.order.status && o.version == split.order.version) = true →
        reversalNow t q.orderId input.amountMinor = some split.reversal)
    (hb : batch (allocatedBatch input split id now revoke) 0 t = .ok (ns, u)) (hi : RewardInOrder q t) :
    RewardInOrder q u := by
  unfold allocatedBatch at hb
  obtain ⟨ns1, t3, ns2, hb, htail, -⟩ := batch_append_ok hb
  obtain ⟨n1, t1, n2, t2, n3, t3', h1, h2, h3, rfl⟩ := batch_three_ok hb
  have r1 : RewardKept q t t1 := rewardOrders_kept (fun _ _ => by exact ⟨rfl, rfl, rfl⟩) _ _ _ _ h1
  have hi2 : RewardInOrder q t2 := by
    refine insertRefund_reward (onChanges_ok h2) ?_ (hi.keep r1)
    split
    · next hhit =>
      subst hhit
      rcases fromOrder_cases t1 split.order.id (fun o => o.version == split.order.version + 1) _ with
        hnone | ⟨o, ho, -, hone⟩
      · exact Or.inl hnone
      · refine Or.inr ⟨_, hone, rfl, fun hid => ?_⟩
        have hsame : split.order.id = q.orderId := (Table.get?_key ho : o.id = _).symm.trans hid
        exact (reversalNow_fits hi (hsound hsame (orderSwap_hit (fun _ _ => by rfl) h1))).keep r1
    · exact Or.inl rfl
  have r3 : RewardKept q t2 t3' := keeps_reward (insert_off rfl) _ _ _ _ h3
  exact hi2.keep (r3.trans (batch_within .refl (fun _ _ _ => .trans) (fullRefund_rewardKept hrevoke _) htail))

theorem walletRefundBatch_reward {order : ShopOrder} {user : User} {available reversal : Int}
    (hsound : order.id = q.orderId → t.orderIs order.id (fun o =>
      (o.status == order.status && o.version == order.version) || o.version == order.version + 1) = true →
        reversalNow t q.orderId input.amountMinor = some reversal)
    (hb : batch (walletRefundBatch input order user available reversal id now revoke) 0 t = .ok (ns, u))
    (hi : RewardInOrder q t) : RewardInOrder q u := by
  unfold walletRefundBatch at hb
  obtain ⟨ns1, t5, ns2, hb, htail, -⟩ := batch_append_ok hb
  obtain ⟨n1, t1, n2, t2, n3, t3, n4, t4, n5, t5', h1, h2, h3, h4, h5, rfl⟩ := batch_five_ok hb
  have r1 : RewardKept q t t1 := by
    refine usersRow_kept (fun s x hp => ?_) _ _ _ _ h1
    simp only [Bool.and_eq_true, beq_iff_eq] at hp
    exact .bump rfl (congrArg (· + 1) hp.1.2.symm)
  have r2 : RewardKept q t1 t2 := keeps_reward (insert_off rfl) _ _ _ _ h2
  have r3 : RewardKept q t2 t3 := rewardOrders_kept (fun _ _ => by exact ⟨rfl, rfl, rfl⟩) _ _ _ _ h3
  have hkept : RewardKept q t t3 := (r1.trans r2).trans r3
  have horders : t2.orders = t.orders := by
    obtain ⟨-, tu, -, rfl⟩ := update_ok h1
    obtain ⟨-, tw, -, rfl⟩ := insert_abort_ok h2
    rfl
  have hi4 : RewardInOrder q t4 := by
    refine insertRefund_reward h4 ?_ (hi.keep hkept)
    rcases fromOrder_cases t3 order.id (fun o => o.version == order.version + 1) _ with
      hnone | ⟨o, ho, hv, hone⟩
    · exact Or.inl hnone
    · refine Or.inr ⟨_, hone, rfl, fun hid => ?_⟩
      have hsame : order.id = q.orderId := (Table.get?_key ho : o.id = _).symm.trans hid
      refine (reversalNow_fits hi (hsound hsame (orderIs_iff.mpr ?_))).keep hkept
      have hget := Table.get?_map (updateOrders_rows (fun _ _ => by rfl) h3).2 (fun r => by split <;> rfl) order.id
      rw [ho, horders] at hget
      obtain ⟨o', ho', hoo⟩ := Option.map_eq_some_iff.mp hget.symm
      refine ⟨o', ho', ?_⟩
      rw [Bool.or_eq_true]
      split at hoo
      · next hp =>
        rw [Bool.and_eq_true] at hp
        simp only [orderCas, Bool.and_eq_true] at hp
        rw [Bool.and_eq_true]
        exact Or.inl hp.1.2
      · exact Or.inr (hoo ▸ hv)
  have r5 : RewardKept q t4 t5' := keeps_reward (insert_off rfl) _ _ _ _ h5
  exact hi4.keep (r5.trans (batch_within .refl (fun _ _ _ => .trans) (fullRefund_rewardKept hrevoke _) htail))

end

theorem finalizeBatch_reward {refund : Refund} {status : RefundStatus} {code : Option RefundFailure}
    {paymentId : Option ProviderRefundId} {orderStatus : ShopOrderStatus} {close : List (Stmt Db)}
    (hclose : ∀ st ∈ close, CloseStmt st)
    (hsound : status = .succeeded → ∀ r ∈ t.refunds.get? refund.id, finalizable refund.id attempt r = true →
      r.orderId = q.orderId → reversalNow t q.orderId r.amountMinor = some r.referralReversalMinor)
    (hb : batch (finalizeBatch refund status code paymentId attempt orderStatus now close) 0 t =
      .ok (ns, u)) (hi : RewardInOrder q t) : RewardInOrder q u := by
  unfold finalizeBatch at hb
  obtain ⟨n1, t1, ms1, h1, hb, -⟩ := batch_cons_ok hb
  have hi1 : RewardInOrder q t1 := by
    by_cases hs : status = .succeeded
    · unfold updateRefunds at h1
      rcases updateEach_key (k := refund.id) (fun r => Bool.and_assoc _ _ _) h1 with rfl | ⟨r, hr, hfin, hrow⟩
      · exact hi
      · obtain ⟨ns1, s1, m1, s2, ns2, e1, e2, e3⟩ := updateRow_ok hrow
        obtain ⟨-, rfl⟩ := batch_nil_ok e1
        obtain ⟨-, tr, htr, rfl⟩ := update_ok e2
        have hopen : r.status ≠ .succeeded := fun hst => by simp [finalizable, hst] at hfin
        rw [if_pos ⟨hs, hopen⟩] at e3
        refine hi.refund (.row (by rfl) (by rfl) hopen hs (Table.get?_mem hr) ?_ (by rfl))
          (promotionRefund_taken e3) fun hid => ?_
        · refine htr.trans (map_congr_left fun x _ => ?_)
          by_cases hk : KeyedRow.key x = KeyedRow.key r
          · rw [if_pos (beq_iff_eq.mpr hk), if_pos hk]
          · rw [if_neg (by simpa using hk), if_neg hk]
        · exact reversalNow_fits hi (hsound hs r hr hfin hid)
    · refine hi.keep (updateRefunds_kept (fun s r hp => ⟨by rfl, by rfl, fun hst => ?_, by exact hs⟩)
        _ _ _ _ h1)
      simp [finalizable, hst] at hp
  refine hi1.keep (batch_within .refl (fun _ _ _ => .trans) (fun st hst => ?_) hb)
  rcases mem_append.mp hst with hst | hst
  · refine each_three ?_ ?_ ?_ _ hst
    · exact rewardOrders_kept fun _ _ => ⟨rfl, rfl, rfl⟩
    · exact keeps_reward (insert_off rfl)
    · exact keeps_reward (insert_off rfl)
  · exact (hclose st hst).rewardKept

theorem refundOutbox_rewardKept {refundId : Id} {type : OutboxType} {next : Time} {guard : Option RefundOutboxGuard} :
    Within (RewardKept q) (refundOutboxStatement refundId type next attempt guard) :=
  keeps_reward (insert_off rfl)

theorem requestBatch_reward {o : RefundableOrder} {paymentAmount : Int} {split : Option PromotionSplit}
    {manual : Bool} (hfresh : t.refunds.get? id = none)
    (hb : batch (requestBatch input o paymentAmount split manual id now) 0 t = .ok (ns, u)) :
    RewardKept q t u := by
  unfold requestBatch at hb
  obtain ⟨ns1, t4, ns2, hb, hsplit, -⟩ := batch_append_ok hb
  obtain ⟨ns3, t3, ns4, hb, houtbox, -⟩ := batch_append_ok hb
  obtain ⟨n1, t1, n2, t2, n3, t3', h1, h2, h3, rfl⟩ := batch_three_ok hb
  have r1 : RewardKept q t t1 := rewardOrders_kept (fun _ _ => by exact ⟨rfl, rfl, rfl⟩) _ _ _ _ h1
  have hrows1 : t1.refunds = t.refunds :=
    Keeps.eq (g := Db.refunds) (updateOrders_keeps (by constructor <;> exact fun _ _ => rfl) fun _ _ => rfl) h1
  obtain ⟨r2, hnew⟩ : RewardKept q t1 t2 ∧ ∀ r ∈ t2.refunds.rows, r ∈ t1.refunds.rows ∨ r.status ≠ .succeeded := by
    refine insertRefund_open (onChanges_ok h2) ?_
    split
    · refine (fromOrder_cases t1 _ _ _).imp (fun h => h) fun ⟨x, _, _, hx⟩ => ⟨_, hx, ?_⟩
      split <;> simp
    · exact Or.inl rfl
  -- a refund under this id is the new one
  have hopen : ∀ r ∈ t2.refunds.rows, r.id = id → r.status ≠ .succeeded := by
    intro r hr hid
    refine (hnew r hr).resolve_left fun hold => ?_
    rw [hrows1] at hold
    have hget : t.refunds.get? r.id = some r := Table.mem_get? hold
    rw [hid, hfresh] at hget
    cases hget
  have r3 : RewardKept q t2 t3' := keeps_reward (insert_off rfl) _ _ _ _ h3
  have hout : RewardKept q t3' t4 ∧ t4.refunds = t3'.refunds := by
    constructor
    · refine batch_within .refl (fun _ _ _ => .trans) (fun st hst => ?_) houtbox
      split at hst
      · cases hst
      · rw [mem_singleton.mp hst]
        exact refundOutbox_rewardKept
    · refine batch_keeps (g := Db.refunds) (fun st hst => ?_) houtbox
      split at hst
      · cases hst
      · rw [mem_singleton.mp hst]
        exact insert_off rfl
  have hrows4 : t4.refunds = t2.refunds := by
    obtain ⟨-, te, -, rfl⟩ := insert_abort_ok h3
    exact hout.2
  refine (((r1.trans r2).trans r3).trans hout.1).trans ?_
  split at hsplit
  · simp only [batch_nil, Except.ok.injEq, Prod.mk.injEq] at hsplit
    exact hsplit.2 ▸ .refl _
  · obtain ⟨n5, t5, ms5, h5, hsplit, -⟩ := batch_cons_ok hsplit
    obtain ⟨-, rfl⟩ := batch_nil_ok hsplit
    refine refundRow_kept (fun r hr hp => ?_) h5
    have hst := hopen r (by rw [← hrows4]; exact hr) (beq_iff_eq.mp hp)
    exact ⟨rfl, rfl, hst, hst⟩

theorem RefundBatch.reward {τ : Type} {S : Spec Db Site τ} {x : Site} {sts : List (Stmt Db)}
    (h : RefundBatch S x sts t) (hc : reversalSound q.orderId x t) (hb : batch sts 0 t = .ok (ns, u))
    (hi : RewardInOrder q t) : RewardInOrder q u := by
  have hall : (∀ st ∈ sts, Within (RewardKept q) st) → RewardInOrder q u :=
    fun hsts => hi.keep (batch_within .refl (fun _ _ _ => .trans) hsts hb)
  cases h with
  | request input o amount split manual e => exact hi.keep (requestBatch_reward hc hb)
  | allocated input split e revoke hrevoke => exact allocatedBatch_reward hrevoke hc hb hi
  | wallet input order user available reversal e revoke hrevoke horder =>
    exact walletRefundBatch_reward hrevoke hc hb hi
  | retry refundId orderId now =>
    refine hall fun st hst => ?_
    refine each_three ?_ ?_ ?_ _ hst
    · exact rewardOrders_kept fun _ _ => ⟨rfl, rfl, rfl⟩
    · refine updateRefunds_kept fun s r hp => ⟨rfl, rfl, fun hs => ?_, by simp⟩
      simp [hs] at hp
    · exact keeps_reward (insert_off rfl)
  | claim refundId count now =>
    refine hall fun st hst => ?_
    rw [mem_singleton.mp hst]
    refine updateRefunds_kept fun s r hp => ⟨rfl, rfl, fun hs => ?_, by simp⟩
    simp [claimable, hs] at hp
  | manualClaim refundId count =>
    refine hall fun st hst => ?_
    rw [mem_singleton.mp hst]
    intro c s n s' h
    refine refundRow_kept (fun r _ hp => ?_) h
    have hs : r.status ≠ .succeeded := fun hs => by simp [hs] at hp
    exact ⟨rfl, rfl, hs, hs⟩
  | schedule refundId paymentId attempt now =>
    refine hall fun st hst => ?_
    refine each_two ?_ ?_ _ hst
    · refine updateRefunds_kept fun s r hp => ⟨rfl, rfl, fun hs => ?_, by simp⟩
      simp [hs] at hp
    · exact refundOutbox_rewardKept
  | providerFailure refundId attempt now =>
    refine hall fun st hst => ?_
    refine each_two ?_ ?_ _ hst
    · refine updateRefunds_kept fun s r hp => ⟨rfl, rfl, fun hs => ?_, by simp⟩
      simp [hs] at hp
    · exact refundOutbox_rewardKept
  | manualReconciliation refundId attempt =>
    refine hall fun st hst => ?_
    rw [mem_singleton.mp hst]
    refine updateRefunds_kept fun s r hp => ⟨rfl, rfl, fun hs => ?_, by simp⟩
    simp [hs] at hp
  | finalize c status code paymentId attempt orderStatus now close hclose =>
    exact finalizeBatch_reward hclose hc hb hi

/-! ## The system -/

def rewardCode : Time ⊕ RefundCall → Call Site Unit
  | .inl now => (settlePromotionRewards now).void
  | .inr c => c.code.void

/-- The condition on a refund of the order `orderId`, and on the balances of every refund. -/
def rewardSound (orderId : Id) (x : Site) (s : Db) : Prop :=
  moneySound False True x s ∧ reversalSound orderId x s

instance (orderId : Id) (x : Site) (s : Db) : Decidable (rewardSound orderId x s) :=
  inferInstanceAs (Decidable (_ ∧ _))

/-- The reward balances are in order, and so is the reward of one order. -/
def rewardSpec (q : Referral) : Spec Db Site Empty :=
  Spec.ofRel (fun s => rewardAccount.Books s ∧ RewardInOrder q s) (rewardSound q.orderId)
    (fun _ _ => True) UsersKept (fun _ => trivial) .refl fun _ _ _ => .trans

theorem reward_admits (hm : MoneyMoves False True t u) (hi : rewardAccount.Books t) (hr : RewardInOrder q u) :
    (rewardSpec q).Admits ∅ ∅ t u :=
  Spec.admits_ofRel ⟨Account.Books.step hi (hm.reward trivial), hr⟩ trivial fun _ => hm.users

theorem reward_admitsRefund : AdmitsRefund (rewardSpec q) :=
  fun _ _ _ _ _ hb hi hc hbatch =>
    reward_admits (hb.moves (fun _ _ h => h) hc.1 hbatch) hi.1 (hb.reward hc.2 hbatch hi.2)

theorem settle_bare (now : Time) (s : Db) : Bare (rewardSpec q) (settlePromotionRewards now) s := by
  have horders : ∀ (rows : List Id) (s : Db), Bare (rewardSpec q) (settleOrders now rows) s := by
    intro rows
    induction rows with
    | nil => exact fun _ => .done _
    | cons row rest ih =>
      refine fun s => (Bare.commit fun t _ hi _ ns u hb => ?_).bind fun _ t _ => (ih t).bind fun _ _ _ => .done _
      obtain ⟨n, u', ns', h1, hnil, -⟩ := batch_cons_ok hb
      obtain ⟨-, rfl⟩ := batch_nil_ok hnil
      exact reward_admits (updateRewards_moves _ _ _ _ _ _ h1) hi.1 (settleStatement_reward h1 hi.2)
  exact Bare.query fun _ _ _ => horders _ _

/-- In every run whose refunds take back what they would take back were it computed when they succeed,
what was credited for an order and what is pending is what its refunds leave of its reward, and every
reward balance is what its entries add up to. -/
theorem referral_reward_accounting {s : Db} (h0 : rewardAccount.Books s) (hq : RewardInOrder q s)
    {w : World Db Site DomainError Unit} (hrun : Runs rewardCode (rewardSound q.orderId) ⟨s, []⟩ w) :
    (∃ row, w.db.rewards.get? q.orderId = some row ∧
      netReward w.db q.orderId q.referrer + pendingReward row = q.rewardMinor -
        q.rewardMinor * refundedSum w.db q.orderId (·.amountMinor) / q.paidMinor) ∧
      ∀ u ∈ w.db.users.rows, u.rewardBalanceMinor = rewardSum w.db u.id := by
  have hcode : ∀ (c : Time ⊕ RefundCall) (s : Db), (rewardSpec q).inv s →
      Prog.Ok (rewardSpec q) Prog.anyEnd (rewardCode c) ∅ s := by
    intro c s _
    cases c with
    | inl now => exact (settle_bare now s).void.ok
    | inr c => exact (RefundCall.bare reward_admitsRefund c s).void.ok
  have hgood := (Runs.sound (rewardSpec q) hcode hrun (good_idle _ ⟨h0, hq⟩)).1
  exact ⟨hgood.1.2.accounts, fun u hu => rewardBooks_sum hgood.1.1 hu⟩

theorem RewardInOrder.start (hreferrer : ∃ u ∈ s.users.rows, u.id = q.referrer) {o : ShopOrder}
    (ho : s.orders.get? q.orderId = some o) (hpaid : o.paidMinor = q.paidMinor)
    (hreward : o.referralRewardMinor = q.rewardMinor) (hw : s.rewards.get? q.orderId = some w)
    (huser : w.userId = some q.referrer) (hamount : w.amountMinor = q.rewardMinor)
    (hremaining : w.remainingMinor = q.rewardMinor) (hpending : w.state = .pending)
    (hrefunds : ∀ r ∈ s.refunds.rows, r.orderId = q.orderId → r.status ≠ .succeeded)
    (hentries : ∀ e ∈ s.rewardEntries.rows, e.idempotencyKey.ofReferral = false) : RewardInOrder q s := by
  have hsum : ∀ c, refundedSum s q.orderId c = 0 := by
    intro c
    unfold refundedSum succeededRefunds
    rw [filter_eq_nil_iff.mpr]
    · rfl
    · intro r hr hp
      rw [Bool.and_eq_true, beq_iff_eq, beq_iff_eq] at hp
      exact hrefunds r hr hp.1 hp.2
  have hnet : netReward s q.orderId q.referrer = 0 := by
    unfold netReward
    rw [filter_eq_nil_iff.mpr]
    · rfl
    · intro e he hp
      rw [Bool.and_eq_true, ofReward_other (hentries e he)] at hp
      cases hp.2
  refine ⟨hreferrer, ⟨o, ho, hpaid, hreward⟩, ?_, ?_, fun e he id hid => ?_, w, hw, huser, hamount, ?_, ?_,
    fun hs => ?_⟩
  · rw [hsum]
    exact Int.natCast_nonneg _
  · rw [hsum, hsum]
    simp [Referral.share]
  · have hfalse := hentries e he
    rw [hid] at hfalse
    cases hfalse
  · rw [hsum, hremaining, Int.sub_zero]
  · unfold creditedReward
    rw [hpending]
    exact hnet
  · rw [hpending] at hs
    cases hs

/-! ## Two runs -/

def referredOrderDb : Db where
  users := .ok [{ id := 1 }]
  orders := .ok [{ id := 1, status := .completed, version := 2, totalMinor := 100, paidMinor := 100
                   promotionPurpose := some .referral, referrerUserId := some 1
                   referralRewardMinor := 9 }]
  rewards := .ok [{ orderId := 1, userId := some 1, amountMinor := 9, remainingMinor := 9
                    availableAt := some 90 }]
  attempts := .ok [{ id := 1, orderId := some 1, channelId := 1, providerPaymentId := some (.provider 1)
                     idempotencyKey := 1, status := .succeeded, amountMinor := 100 }]
  channels := .ok [{ id := 1, provider := .stripe, credentialEncrypted := some 1 }]

def partOfOrder (refundId amountMinor now : Nat) : RefundCall :=
  .request ⟨1, amountMinor, refundId⟩ ⟨refundId, now, fun _ => 2, true⟩

def partAnswered (refundId : Id) (answer : ProviderAnswer) (now : Time) : RefundCall :=
  .process refundId ⟨true, now, answer, now + 1⟩

def settledRun : World Db Site DomainError Unit :=
  World.exec rewardCode (rewardSound 1) ⟨referredOrderDb, []⟩
    (oneByOne [.inr (partOfOrder 10 30 5), .inr (partAnswered 10 (.succeeded (.provider 1) none) 6),
      .inl 100, .inr (partOfOrder 11 70 101), .inr (partAnswered 11 (.succeeded (.provider 2) none) 102)] 14)

def retriedPartRun : World Db Site DomainError Unit :=
  World.exec rewardCode anySite ⟨referredOrderDb, []⟩
    (oneByOne [.inr (partOfOrder 10 50 5), .inr (partAnswered 10 (.failed (.provider 1) none) 6),
      .inr (partOfOrder 11 50 8), .inr (partAnswered 11 (.succeeded (.provider 2) none) 9),
      .inr (.retry 10 11), .inr (partAnswered 10 (.succeeded (.provider 3) none) 12)] 14)

abbrev referredOrder : Referral := ⟨1, 1, 100, 9⟩

theorem referredOrderDb_books : rewardAccount.Books referredOrderDb := by
  intro u hu
  rw [mem_singleton.mp hu]
  rfl

theorem referredOrderDb_reward : RewardInOrder referredOrder referredOrderDb :=
  .start ⟨_, mem_singleton_self _, rfl⟩ rfl rfl rfl rfl rfl rfl rfl rfl (by decide) (by decide)

theorem referral_reward_accounting_settledRun :
    settledRun.db.rewardEntries.rows.map (fun e => (e.userId, e.deltaMinor)) = [(1, 7), (1, -7)] ∧
      (∃ row, settledRun.db.rewards.get? 1 = some row ∧ netReward settledRun.db 1 1 + pendingReward row =
          9 - 9 * refundedSum settledRun.db 1 (·.amountMinor) / 100) ∧
      ∀ u ∈ settledRun.db.users.rows, u.rewardBalanceMinor = rewardSum settledRun.db u.id := by
  have hrun : Runs rewardCode (rewardSound 1) ⟨referredOrderDb, []⟩ settledRun :=
    World.exec_runs rewardCode (rewardSound 1) _ _
  exact ⟨by set_option maxRecDepth 50000 in decide,
    referral_reward_accounting (q := referredOrder) referredOrderDb_books referredOrderDb_reward hrun⟩

/-- Both refunds take back a share of the first half: 1 of 9 stays pending behind a full refund. -/
theorem not_referral_reward_accounting : ¬∀ (q : Referral) (s : Db), rewardAccount.Books s → RewardInOrder q s →
      ∀ w : World Db Site DomainError Unit, Runs rewardCode anySite ⟨s, []⟩ w →
        ∀ row, w.db.rewards.get? q.orderId = some row →
          netReward w.db q.orderId q.referrer + pendingReward row = q.rewardMinor -
            q.rewardMinor * refundedSum w.db q.orderId (·.amountMinor) / q.paidMinor := by
  intro h
  have hrun : Runs rewardCode anySite ⟨referredOrderDb, []⟩ retriedPartRun :=
    World.exec_runs rewardCode anySite _ _
  have hrow : retriedPartRun.db.rewards.get? 1 = some
      { orderId := 1, userId := some 1, amountMinor := 9, remainingMinor := 1, availableAt := some 90 } := by
    set_option maxRecDepth 50000 in decide
  have hbad := h referredOrder referredOrderDb referredOrderDb_books referredOrderDb_reward retriedPartRun hrun _ hrow
  have hnet : netReward retriedPartRun.db 1 1 = 0 := by set_option maxRecDepth 50000 in decide
  have hsum : refundedSum retriedPartRun.db 1 (·.amountMinor) = 100 := by
    set_option maxRecDepth 50000 in decide
  dsimp only at hbad
  rw [hnet, hsum] at hbad
  exact absurd hbad (by decide)

end Gmshop
