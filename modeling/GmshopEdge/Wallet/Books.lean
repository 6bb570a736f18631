import GmshopEdge.Lib.Account
import GmshopEdge.Orders.Statements

/-!
# The books of the wallets

Two accounts hang on a user row: the cash balance with its wallet entries, and the reward balance with
its reward entries. `MoneyMoves` is what a group of statements has to be shown to do to them: the
entries it adds lead from each old balance to the new one, and a balance changes only with its version.
The triggers write the two sides of a movement one after the other, so they are taken as groups
(`Transfer`); a swap of a balance that was read is one, too, since its version still stands.
-/

namespace Gmshop

open List Sql Stmt Table

/-! ## The accounts -/

def walletStep (before : Int) (e : WalletEntry) (after : Int) : Prop :=
  e.balanceBeforeMinor = before ∧ e.balanceAfterMinor = after ∧ after = match e.direction with
      | .credit => before + e.amountMinor
      | .debit => before - e.amountMinor

def rewardStep (before : Int) (e : RewardEntry) (after : Int) : Prop :=
  e.balanceAfterMinor = after ∧ after = before + e.deltaMinor

/-- `users.balance_minor` with `wallet_entries`. -/
def cashAccount : Account Db User WalletEntry where
  accounts := Db.users
  entries := Db.walletEntries
  balance := User.balanceMinor
  owner := WalletEntry.userId
  step := walletStep

/-- `users.reward_balance_minor` with `reward_entries`. -/
def rewardAccount : Account Db User RewardEntry where
  accounts := Db.users
  entries := Db.rewardEntries
  balance := User.rewardBalanceMinor
  owner := RewardEntry.userId
  step := rewardStep

/-! ## Users stay -/

/-- A user later on: while the version of the balance stands, so does the balance. -/
structure UserLater (u u' : User) : Prop where
  id : u'.id = u.id
  version : u.balanceVersion ≤ u'.balanceVersion
  same : u'.balanceVersion = u.balanceVersion → u'.balanceMinor = u.balanceMinor

theorem UserLater.refl (u : User) : UserLater u u := ⟨rfl, Nat.le_refl _, fun _ => rfl⟩

theorem UserLater.trans {a b c : User} (h : UserLater a b) (h' : UserLater b c) : UserLater a c where
  id := h'.id.trans h.id
  version := Nat.le_trans h.version h'.version
  same hv := by
    have h1 := h.version
    have h2 := h'.version
    rw [h'.same (by omega), h.same (by omega)]

variable {u u' user : User} {s s' t : Db} {id : Id} {st : Stmt Db} {w : User → List WalletEntry}
  {f : User → User} {r : User → List RewardEntry} {α β : Type} {p q : User → Bool} {tu : Table User}
  {c n version : Nat} {gr : Db → List RewardEntry} {ns : List Nat} {hold : OrderBalanceHold} {now : Time}
  {e : WalletEntry} {after : Int} {ordering paying : Prop}

theorem UserLater.bump (hid : u'.id = u.id) (hv : u'.balanceVersion = u.balanceVersion + 1) : UserLater u u' :=
  ⟨hid, by omega, fun h => by omega⟩

/-- Every user of `s` is there in `t`, and no other. -/
def UsersKept (s t : Db) : Prop :=
  ∃ f : User → User, t.users.rows = s.users.rows.map f ∧ ∀ u, UserLater u (f u)

theorem UsersKept.refl (s : Db) : UsersKept s s := ⟨id, (map_id _).symm, .refl⟩

theorem UsersKept.trans {u : Db} (h : UsersKept s t) (h' : UsersKept t u) : UsersKept s u := by
  obtain ⟨f, hf, hlater⟩ := h
  obtain ⟨g, hg, hlater'⟩ := h'
  refine ⟨g ∘ f, ?_, fun u => (hlater u).trans (hlater' _)⟩
  rw [hg, hf, map_map]

theorem UsersKept.get (h : UsersKept s t) (hu : s.users.get? id = some u) (hu' : t.users.get? id = some u') :
    UserLater u u' := by
  obtain ⟨f, hf, hlater⟩ := h
  rw [get?_map hf (fun r => (hlater r).id), hu, Option.map_some, Option.some.injEq] at hu'
  exact hu' ▸ hlater u

theorem UsersKept.mem (h : UsersKept s t) (hu : ∃ u ∈ s.users.rows, u.id = id) : ∃ u ∈ t.users.rows, u.id = id := by
  obtain ⟨f, hf, hlater⟩ := h
  obtain ⟨u, hmem, hid⟩ := hu
  exact ⟨f u, hf ▸ mem_map_of_mem hmem, (hlater u).id.trans hid⟩

theorem users_with {t : Table User} (h : ∃ u ∈ t.rows, u.id = id) :
    ∃ u, u.id = id ∧ (t.rows.filter fun u => u.id == id) = [u] := by
  obtain ⟨u, hu, rfl⟩ := h
  refine ⟨u, rfl, ?_⟩
  have hfilter : t.rows.filter (fun x => x.id == u.id && true) = ((t.get? u.id).filter fun _ => true).toList :=
    filter_key t u.id fun _ => true
  simp only [Bool.and_true] at hfilter
  rw [hfilter, show t.get? u.id = some u from mem_get? hu]
  rfl

/-! ## Movements -/

structure MoneyMoves (cash reward : Prop) (s t : Db) : Prop where
  users : UsersKept s t
  cash : cash → cashAccount.Moves s t
  reward : reward → rewardAccount.Moves s t

variable {cash reward : Prop}

theorem MoneyMoves.refl (s : Db) : MoneyMoves cash reward s s :=
  ⟨.refl s, fun _ => .refl s, fun _ => .refl s⟩

theorem MoneyMoves.trans {u : Db} (h : MoneyMoves cash reward s t) (h' : MoneyMoves cash reward t u) :
    MoneyMoves cash reward s u :=
  ⟨h.users.trans h'.users, fun hc => (h.cash hc).trans (h'.cash hc), fun hr => (h.reward hr).trans (h'.reward hr)⟩

theorem keeps_money (h : Keeps (fun s => (s.users, s.walletEntries, s.rewardEntries)) st) :
    Within (MoneyMoves cash reward) st := by
  intro c s n s' hs
  have hk := h c s n s' hs
  simp only [Prod.mk.injEq] at hk
  exact ⟨⟨id, by rw [hk.1, map_id], .refl⟩, fun _ => .of_eq hk.1 hk.2.1, fun _ => .of_eq hk.1 hk.2.2⟩

/-- What one user is moved by: the entries of a movement, and the row it leaves. -/
structure Transfer (cash reward : Prop) (u : User) (ws : List WalletEntry) (rs : List RewardEntry)
    (u' : User) : Prop where
  later : UserLater u u'
  walletOwner : ∀ e ∈ ws, e.userId = u.id
  rewardOwner : ∀ e ∈ rs, e.userId = u.id
  cash : cash → Path walletStep u.balanceMinor ws u'.balanceMinor
  reward : reward → Path rewardStep u.rewardBalanceMinor rs u'.rewardBalanceMinor

theorem Transfer.none (u : User) : Transfer cash reward u [] [] u where
  later := .refl u
  walletOwner e he := by cases he
  rewardOwner e he := by cases he
  cash _ := rfl
  reward _ := rfl

theorem moneyMoves_each (hu : t.users.rows = s.users.rows.map f)
    (hw : t.walletEntries.rows = s.walletEntries.rows ++ s.users.rows.flatMap w)
    (hr : t.rewardEntries.rows = s.rewardEntries.rows ++ s.users.rows.flatMap r)
    (h : ∀ u ∈ s.users.rows, Transfer cash reward u (w u) (r u) (f u)) : MoneyMoves cash reward s t := by
  -- a row that is not stored stays
  have hall : ∀ u, Transfer cash reward u (if u ∈ s.users.rows then w u else [])
      (if u ∈ s.users.rows then r u else []) (if u ∈ s.users.rows then f u else u) := by
    intro u
    by_cases hu : u ∈ s.users.rows
    · simp only [if_pos hu]
      exact h u hu
    · simp only [if_neg hu]
      exact .none u
  have hstored : ∀ {β : Type} (g : User → List β), s.users.rows.flatMap g =
      s.users.rows.flatMap fun u => if u ∈ s.users.rows then g u else [] :=
    fun g => flatMap_congr fun u hu => (if_pos hu).symm
  have hmap : t.users.rows = s.users.rows.map fun u => if u ∈ s.users.rows then f u else u :=
    hu.trans (map_congr_left fun u hu => (if_pos hu).symm)
  refine ⟨⟨_, hmap, fun u => (hall u).later⟩, fun hc => ?_, fun hc => ?_⟩
  · exact Account.Moves.each (A := cashAccount) hmap (fun u => (hall u).later.id)
      (hw.trans (congrArg _ (hstored w))) (fun u => (hall u).walletOwner) fun u _ => (hall u).cash hc
  · exact Account.Moves.each (A := rewardAccount) hmap (fun u => (hall u).later.id)
      (hr.trans (congrArg _ (hstored r))) (fun u => (hall u).rewardOwner) fun u _ => (hall u).reward hc

/-! ## The triggers -/

theorem filter_flatMap (xs : List α) (q : α → Bool) (g : α → List β) :
    (xs.filter q).flatMap g = xs.flatMap fun x => if q x then g x else [] := by
  induction xs with
  | nil => rfl
  | cons x xs ih => cases hq : q x <;> simp [hq, ih]

theorem when_flatMap (c : Prop) [Decidable c] (xs : List α) (g : α → β) :
    (if c then xs.map g else []) = xs.flatMap fun x => if c then [g x] else [] := by
  by_cases hc : c
  · simp only [if_pos hc]
    exact map_eq_flatMap
  · simp [if_neg hc]

theorem transfer_moves {W : Table WalletEntry} {tr : Table RewardEntry}
    (hw : W.rows = s.walletEntries.rows ++ (s.users.rows.filter q).flatMap w)
    (hu : tu.rows = s.users.rows.map fun u => if q u then f u else u)
    (hr : tr.rows = s.rewardEntries.rows ++ (tu.rows.filter q).flatMap r) (hq : ∀ u, q (f u) = q u)
    (h : ∀ u, q u = true → Transfer cash reward u (w u) (r (f u)) (f u)) :
    MoneyMoves cash reward s { s with walletEntries := W, users := tu, rewardEntries := tr } := by
  refine moneyMoves_each (f := fun u => if q u then f u else u)
    (w := fun u => if q u then w u else []) (r := fun u => if q u then r (f u) else []) hu ?_ ?_ ?_
  · rw [← filter_flatMap]
    exact hw
  · show tr.rows = _
    rw [hr, hu, filter_flatMap, flatMap_map]
    refine congrArg _ (congrArg (flatMap · s.users.rows) (funext fun u => ?_))
    by_cases hu : q u = true
    · simp [hu, hq]
    · simp [hu]
  · intro u _
    by_cases hu : q u = true
    · simp only [if_pos hu]
      exact h u hu
    · simp only [if_neg hu]
      exact .none u

theorem transfer_batch {p : Db → User → Bool} {gw : Db → List WalletEntry} {w : User → WalletEntry}
    {r : User → RewardEntry} {cw cr : Prop} [Decidable cw] [Decidable cr]
    (hb : batch [insert Db.walletEntriesT .abort gw, update Db.usersT p (fun _ u => f u),
      insert Db.rewardEntriesT .abort gr] c s = .ok (ns, s'))
    (hgw : gw s = if cw then (s.users.rows.filter q).map w else [])
    (hp : ∀ tw u, p (Db.walletEntriesT.set s tw) u = q u)
    (hgr : ∀ tw tu, gr (Db.usersT.set (Db.walletEntriesT.set s tw) tu) =
      if cr then (tu.rows.filter q).map r else []) (hq : ∀ u, q (f u) = q u) (h : ∀ u, q u = true →
      Transfer cash reward u (if cw then [w u] else []) (if cr then [r (f u)] else []) (f u)) :
    MoneyMoves cash reward s s' := by
  obtain ⟨n1, s1, n2, s2, n3, s3, h1, h2, h3, rfl⟩ := batch_three_ok hb
  obtain ⟨-, tw, hw, rfl⟩ := insert_abort_ok h1
  obtain ⟨-, tu, hu, rfl⟩ := update_ok h2
  obtain ⟨-, tr, hr, rfl⟩ := insert_abort_ok h3
  refine transfer_moves (q := q) (f := f) (w := fun u => if cw then [w u] else [])
    (r := fun u => if cr then [r u] else []) ?_ ?_ ?_ hq h
  · exact hw.trans (congrArg _ (hgw.trans (when_flatMap _ _ _)))
  · exact hu.trans (map_congr_left fun u _ => by rw [hp tw u])
  · exact hr.trans (congrArg _ ((hgr tw tu).trans (when_flatMap _ _ _)))

theorem cast_of_not_pos (h : ¬0 < n) : (n : Int) = 0 := by
  rw [Nat.eq_zero_of_not_pos h]
  rfl

theorem orderBalanceHoldDebit_moves (hb : batch (orderBalanceHoldDebit hold) c s = .ok (ns, s')) :
    MoneyMoves cash reward s s' := by
  refine transfer_batch (q := fun u => u.id == hold.userId) hb rfl (fun _ _ => rfl) (fun _ _ => rfl)
    (fun _ => rfl) fun u _ => ?_
  constructor
  · exact .bump rfl rfl
  · split <;> simp
  · split <;> simp
  · intro _
    split
    · exact .single ⟨rfl, rfl, rfl⟩
    · next hzero =>
      show u.balanceMinor = u.balanceMinor - (hold.cashMinor : Int)
      rw [cast_of_not_pos hzero, Int.sub_zero]
  · intro _
    split
    · exact .single ⟨rfl, Int.sub_eq_add_neg⟩
    · next hzero =>
      show u.rewardBalanceMinor = u.rewardBalanceMinor - (hold.rewardMinor : Int)
      rw [cast_of_not_pos hzero, Int.sub_zero]

theorem orderBalanceHoldRelease_moves {old new : OrderBalanceHold}
    (hb : batch (orderBalanceHoldRelease old new) c s = .ok (ns, s')) : MoneyMoves cash reward s s' := by
  unfold orderBalanceHoldRelease at hb
  split at hb
  · refine transfer_batch (q := fun u => u.id == new.userId) hb rfl (fun _ _ => rfl) (fun _ _ => rfl)
      (fun _ => rfl) fun u _ => ?_
    constructor
    · exact .bump rfl rfl
    · split <;> simp
    · split <;> simp
    · intro _
      split
      · exact .single ⟨rfl, rfl, rfl⟩
      · next hzero =>
        show u.balanceMinor = u.balanceMinor + (new.cashMinor : Int)
        rw [cast_of_not_pos hzero, Int.add_zero]
    · intro _
      split
      · exact .single ⟨rfl, rfl⟩
      · next hzero =>
        show u.rewardBalanceMinor = u.rewardBalanceMinor + (new.rewardMinor : Int)
        rw [cast_of_not_pos hzero, Int.add_zero]
  · simp only [batch_nil, Except.ok.injEq, Prod.mk.injEq] at hb
    exact hb.2 ▸ .refl s

theorem reward_batch {p : Db → User → Bool} {r : User → RewardEntry} {C : Prop} [Decidable C]
    (hb : batch [update Db.usersT p (fun _ u => f u), insert Db.rewardEntriesT .abort gr] c s =
      .ok (ns, s')) (hp : ∀ u, p s u = (q u && decide C))
    (hgr : ∀ tu, gr (Db.usersT.set s tu) = if C then (tu.rows.filter q).map r else [])
    (hq : ∀ u, q (f u) = q u) (h : C → ∀ u, Transfer cash reward u [] [r (f u)] (f u)) :
    MoneyMoves cash reward s s' := by
  obtain ⟨n2, s2, n3, s3, h2, h3, rfl⟩ := batch_two_ok hb
  obtain ⟨-, tu, hu, rfl⟩ := update_ok h2
  obtain ⟨-, tr, hr, rfl⟩ := insert_abort_ok h3
  refine transfer_moves (s := s) (W := s.walletEntries) (q := q)
    (f := fun u => if C then f u else u) (w := fun _ => []) (r := fun u => if C then [r u] else [])
    (by simp) ?_ ?_ ?_ ?_
  · refine hu.trans (map_congr_left fun u _ => ?_)
    rw [hp u]
    by_cases hcr : C <;> simp [hcr]
  · exact hr.trans (congrArg _ ((hgr tu).trans (when_flatMap _ _ _)))
  · intro u
    split
    · exact hq u
    · rfl
  · intro u _
    by_cases hcr : C
    · simp only [if_pos hcr]
      exact h hcr u
    · simp only [if_neg hcr]
      exact .none u

theorem promotionRewardCredit_moves {old new : PromotionReward}
    (hb : batch (promotionRewardCredit old new) c s = .ok (ns, s')) : MoneyMoves cash reward s s' := by
  unfold promotionRewardCredit at hb
  split at hb
  · refine reward_batch (q := fun u => some u.id == new.userId) (C := True) hb (fun u => by simp)
      (fun _ => (if_pos trivial).symm) (fun _ => rfl) fun _ u => ?_
    exact ⟨⟨rfl, Nat.le_refl _, fun _ => rfl⟩, by simp, by simp, fun _ => rfl, fun _ => .single ⟨rfl, rfl⟩⟩
  · simp only [batch_nil, Except.ok.injEq, Prod.mk.injEq] at hb
    exact hb.2 ▸ .refl s

/-- The parts of a refund move the books of its customer if none is negative beside a positive one. -/
def PartsSound (cash reward : Prop) (cashPart rewardPart : Int) : Prop :=
  (cash → 0 ≤ cashPart ∨ rewardPart ≤ 0) ∧ (reward → 0 ≤ rewardPart ∨ cashPart ≤ 0)

instance (cash reward : Prop) [Decidable cash] [Decidable reward] (cashPart rewardPart : Int) :
    Decidable (PartsSound cash reward cashPart rewardPart) := by
  unfold PartsSound
  infer_instance

abbrev Refund.sound (cash reward : Prop) (r : Refund) : Prop :=
  PartsSound cash reward r.cashReturnMinor r.rewardReturnMinor

def refundOwner (r : Refund) (s : Db) (u : User) : Bool :=
  s.orders.exist fun o => o.id == r.orderId && o.userId == some u.id

/-- The referrer of the refund's order, once the reward has been credited. -/
def refundReferrer (r : Refund) (s : Db) (u : User) : Bool :=
  s.rewards.exist fun w => w.orderId == r.orderId && w.state == .available && w.userId == some u.id

theorem refundReturn_moves {r : Refund} (hr : r.sound cash reward)
    (hb : batch ((promotionRefund r).take 3) c s = .ok (ns, s')) : MoneyMoves cash reward s s' := by
  simp only [promotionRefund, take_succ_cons, take_zero] at hb
  -- the entries are made for the customer, the row is written if there is anything to return
  have hpart : ∀ {x : Int}, (0 < x → 0 < r.cashReturnMinor ∨ 0 < r.rewardReturnMinor) →
      ∀ {ε : Type} (w : User → ε) (us : List User), (if 0 < x then (us.filter (refundOwner r s)).map w
        else []) = if 0 < x then (us.filter fun u => refundOwner r s u &&
          (decide (0 < r.cashReturnMinor) || decide (0 < r.rewardReturnMinor))).map w else [] := by
    intro x hx ε w us
    by_cases hpos : 0 < x
    · have htouched : (decide (0 < r.cashReturnMinor) || decide (0 < r.rewardReturnMinor)) = true := by
        simpa using hx hpos
      simp only [htouched, Bool.and_true]
    · simp only [if_neg hpos]
  refine transfer_batch hb (hpart Or.inl _ _) (fun _ _ => rfl) (fun _ _ => hpart Or.inr _ _)
    (fun _ => rfl) fun u hu => ?_
  have htouched : 0 < r.cashReturnMinor ∨ 0 < r.rewardReturnMinor := by
    simpa using (Bool.and_eq_true_iff.mp hu).2
  constructor
  · exact .bump rfl rfl
  · split <;> simp
  · split <;> simp
  · intro hc
    split
    · exact .single ⟨rfl, rfl, rfl⟩
    · next hzero =>
      have hsound := hr.1 hc
      show u.balanceMinor = u.balanceMinor + r.cashReturnMinor
      omega
  · intro hc
    split
    · exact .single ⟨rfl, rfl⟩
    · next hzero =>
      have hsound := hr.2 hc
      show u.rewardBalanceMinor = u.rewardBalanceMinor + r.rewardReturnMinor
      omega

theorem promotionRefund_moves {r : Refund} (hr : r.sound cash reward)
    (hb : batch (promotionRefund r) c s = .ok (ns, s')) : MoneyMoves cash reward s s' := by
  have hsplit : promotionRefund r = (promotionRefund r).take 3 ++
      (((promotionRefund r).drop 3).take 2 ++ (promotionRefund r).drop 5) := by
    simp [promotionRefund]
  rw [hsplit] at hb
  obtain ⟨ns1, s1, ns2, hreturn, hb, -⟩ := batch_append_ok hb
  obtain ⟨ns3, s2, ns4, hreversal, hrewards, -⟩ := batch_append_ok hb
  simp only [promotionRefund, take_succ_cons, take_zero, drop_succ_cons,
    drop_zero] at hreversal hrewards
  have hback : MoneyMoves cash reward s1 s2 := by
    refine reward_batch (q := refundReferrer r s1) (C := 0 < r.referralReversalMinor) hreversal
      (fun u => Bool.and_comm _ _) (fun _ => rfl) (fun _ => rfl) fun _ u => ?_
    exact ⟨⟨rfl, Nat.le_refl _, fun _ => rfl⟩, by simp, by simp, fun _ => rfl,
      fun _ => .single ⟨rfl, Int.sub_eq_add_neg⟩⟩
  refine ((refundReturn_moves hr hreturn).trans hback).trans
    (batch_within .refl (fun _ _ _ => .trans) (fun st hst => ?_) hrewards)
  rw [mem_singleton.mp hst]
  exact keeps_money (update_off rfl)

/-! ## Statements on tables with triggers -/

theorem updateRow_moves {ρ : Type} [KeyedRow ρ] {T : TableRef Db ρ} {before after : ρ → ρ → List (Stmt Db)}
    (hT : ∀ s t, (fun s : Db => (s.users, s.walletEntries, s.rewardEntries)) (T.set s t) =
      (s.users, s.walletEntries, s.rewardEntries)) {old new : ρ}
    (hb : ∀ st ∈ before old new, Within (MoneyMoves cash reward) st)
    (ha : ∀ c s s' ns, batch (after old new) c s = .ok (ns, s') → MoneyMoves cash reward s s')
    (h : updateRow T before after old new s = .ok s') : MoneyMoves cash reward s s' := by
  obtain ⟨ns1, s1, n, s2, ns2, e1, e2, e3⟩ := updateRow_ok h
  have r1 : MoneyMoves cash reward s s1 := batch_within .refl (fun _ _ _ => .trans) hb e1
  have r2 : MoneyMoves cash reward s1 s2 := keeps_money (update_keeps hT) _ _ _ _ e2
  exact (r1.trans r2).trans (ha _ _ _ _ e3)

theorem updateHolds_moves (p : Db → OrderBalanceHold → Bool) (f : Db → OrderBalanceHold → OrderBalanceHold) :
    Within (MoneyMoves cash reward) (updateHolds p f) := by
  intro c s n s' h
  refine updateRows_each .refl (fun _ _ _ => .trans) (fun r _ s1 s2 h1 => ?_) (updateEach_ok h).2
  refine updateRow_moves (fun _ _ => rfl) (fun st hst => ?_) (fun _ _ _ _ => orderBalanceHoldRelease_moves) h1
  simp only [orderBalanceHoldImmutable, mem_cons, not_mem_nil, or_false] at hst
  subst hst
  exact keeps_money abortWhen_keeps

theorem updateRewards_moves (p : Db → PromotionReward → Bool) (f : Db → PromotionReward → PromotionReward) :
    Within (MoneyMoves cash reward) (updateRewards p f) := by
  intro c s n s' h
  refine updateRows_each .refl (fun _ _ _ => .trans) (fun r _ s1 s2 h1 => ?_) (updateEach_ok h).2
  exact updateRow_moves (fun _ _ => rfl) (fun st hst => by cases hst) (fun _ _ _ _ => promotionRewardCredit_moves) h1

theorem updateOrders_moves (p : Db → ShopOrder → Bool) (f : Db → ShopOrder → ShopOrder) :
    Within (MoneyMoves cash reward) (updateOrders p f) := by
  refine updateEach_within .refl (fun _ _ _ => .trans)
    (fun _ r _ st hst => keeps_money (orderPaidGuards_keeps _ r _ st hst))
    (fun _ _ => keeps_money (update_off rfl)) fun _ _ _ => each_append (each_if fun _ => ?_) ?_
  · exact each_two (keeps_money (update_off rfl)) (keeps_money (update_off rfl))
  · exact each_three (updateHolds_moves _ _) (keeps_money (insert_off rfl)) (keeps_money (update_off rfl))

theorem updateAttempts_moves (p : Db → PaymentAttempt → Bool) (f : Db → PaymentAttempt → PaymentAttempt) :
    Within (MoneyMoves cash reward) (updateAttempts p f) := by
  refine updateEach_within .refl (fun _ _ _ => .trans) (fun _ _ _ => forall_mem_nil _)
    (fun _ _ => keeps_money (update_off rfl)) fun _ _ _ => each_if fun _ => ?_
  exact each_two (updateHolds_moves _ _) (updateOrders_moves _ _)

theorem updateRefunds_moves {p : Db → Refund → Bool} {f : Db → Refund → Refund}
    (hf : ∀ r ∈ s.refunds.rows, p s r = true → (f s r).status = .succeeded → r.status ≠ .succeeded →
      (f s r).sound cash reward) (h : updateRefunds p f c s = .ok (n, s')) : MoneyMoves cash reward s s' := by
  refine updateRows_each .refl (fun _ _ _ => .trans) (fun r hr s1 s2 h1 => ?_) (updateEach_ok h).2
  refine updateRow_moves (fun _ _ => rfl) (fun st hst => by cases hst) (fun c s s' ns hb => ?_) h1
  obtain ⟨hmem, hp⟩ := mem_filter.mp hr
  split at hb
  · next hs => exact promotionRefund_moves (hf r hmem hp hs.1 hs.2) hb
  · simp only [batch_nil, Except.ok.injEq, Prod.mk.injEq] at hb
    exact hb.2 ▸ .refl s

theorem insertRefund_moves {g : Db → List Refund}
    (hg : ∀ r ∈ g s, r.status = .succeeded → r.sound cash reward) (h : insertRefund g c s = .ok (n, s')) :
    MoneyMoves cash reward s s' := by
  have hrows : ∀ (rs : List Refund), (∀ r ∈ rs, r.status = .succeeded → r.sound cash reward) →
      ∀ s s', insertRows Db.refundsT (fun r => if r.status = .succeeded then promotionRefund r else [])
        rs s = .ok s' → MoneyMoves cash reward s s' := by
    intro rs
    induction rs with
    | nil =>
      intro _ s s' h
      simp only [insertRows, Except.ok.injEq] at h
      exact h ▸ .refl s
    | cons r rs ih =>
      intro hrs s s' h
      obtain ⟨n, s1, ns, s2, h1, h2, h3⟩ := insertRows_cons_ok h
      have r1 : MoneyMoves cash reward s s1 := keeps_money (insert_off rfl) _ _ _ _ h1
      have r2 : MoneyMoves cash reward s1 s2 := by
        split at h2
        · next hs => exact promotionRefund_moves (hrs r mem_cons_self hs) h2
        · simp only [batch_nil, Except.ok.injEq, Prod.mk.injEq] at h2
          exact h2.2 ▸ .refl s1
      exact (r1.trans r2).trans (ih (fun x hx => hrs x (mem_cons_of_mem _ hx)) _ _ h3)
  exact hrows _ hg _ _ (insertEach_ok h).2

theorem insertHold_moves (hb : batch (insertHold now hold) c s = .ok (ns, s')) : MoneyMoves cash reward s s' := by
  obtain ⟨ns1, s1, ns2, hb1, hdebit, -⟩ := batch_append_ok hb
  refine MoneyMoves.trans ?_ (orderBalanceHoldDebit_moves hdebit)
  refine batch_within .refl (fun _ _ _ => .trans) (fun st hst => ?_) hb1
  simp only [orderBalanceHoldValidate, mem_append, mem_cons, not_mem_nil, or_false] at hst
  rcases hst with rfl | rfl
  · exact keeps_money abortWhen_keeps
  · exact keeps_money (insert_off rfl)

/-! ## Swaps -/

def swapped (after : Int) (version : Nat) (u : User) : User :=
  { u with balanceMinor := after, balanceVersion := version + 1 }

theorem swap_moves {tw : Table WalletEntry} (hu : tu.rows = s.users.rows.map fun u =>
      if u.id == id && p u then swapped after version u else u)
    (hw : tw.rows = s.walletEntries.rows ++ ((s.users.get? id).filter p).toList.map fun _ => e)
    (hhit : ∀ u ∈ s.users.get? id, p u = true → u.balanceVersion = version ∧
      (cash → walletStep u.balanceMinor e after)) (howner : e.userId = id) :
    MoneyMoves cash reward s { s with users := tu, walletEntries := tw } := by
  refine moneyMoves_each (w := fun u => if u.id == id && p u then [e] else []) (r := fun _ => [])
    hu ?_ (by simp) fun u hmem => ?_
  · show tw.rows = _
    rw [hw, ← filter_flatMap s.users.rows _ fun _ => [e], ← map_eq_flatMap]
    exact congrArg _ (congrArg _ (filter_key s.users id p).symm)
  · by_cases hp : (u.id == id && p u) = true
    · simp only [if_pos hp]
      rw [Bool.and_eq_true, beq_iff_eq] at hp
      obtain ⟨hv, hstep⟩ := hhit u (get?_eq_some_iff.mpr ⟨hmem, hp.1⟩) hp.2
      refine ⟨.bump rfl (congrArg (· + 1) hv.symm), fun e' he' => ?_, by simp,
        fun hc => .single (hstep hc), fun _ => rfl⟩
      rw [mem_singleton.mp he', howner, hp.1]
    · simp only [if_neg hp]
      exact .none u

theorem swap_changes (hn : n = s.users.count fun u => u.id == id && p u) (hu : s.users.get? id = some u) :
    (n == 1) = p u := by
  have hcount : n = ((s.users.get? id).filter p).toList.length :=
    hn.trans (count_key s.users id p)
  rw [hcount, hu]
  cases hp : p u <;> simp [Option.filter, hp]

theorem swap_entries {r : User → Bool} {g : User → WalletEntry} (hu : tu.rows = s.users.rows.map fun u =>
      if u.id == id && p u then swapped after version u else u) (hr : ∀ u, r u = (u.id == id && q u))
    (hhit : ∀ u ∈ s.users.get? id, p u = true → q (swapped after version u) = true)
    (hmiss : ∀ u ∈ s.users.get? id, p u = false → q u = false)
    (hg : ∀ u, u.id = id → u.balanceMinor = after → g u = e) :
    (tu.rows.filter r).map g = ((s.users.get? id).filter p).toList.map fun _ => e := by
  obtain rfl : r = fun u => u.id == id && q u := funext hr
  have hfilter : tu.rows.filter (fun u => u.id == id && q u) = ((tu.get? id).filter q).toList :=
    filter_key tu id q
  rw [hfilter, get?_map hu fun u => by split <;> rfl]
  cases hget : s.users.get? id with
  | none => rfl
  | some u =>
    have hid : u.id = id := get?_key hget
    rw [Option.map_some]
    cases hp : p u with
    | true =>
      rw [if_pos (by simp [hid]), Option.filter_some_pos (hhit u hget hp), Option.filter_some_pos hp]
      exact congrArg (fun e => [e]) (hg _ hid rfl)
    | false =>
      have hq := hmiss u hget hp
      simp [Option.filter, hp, hq]

theorem walletBatch_moves {input : WalletMutation}
    (hafter : after = if input.direction = .credit then user.balanceMinor + input.amountMinor
      else user.balanceMinor - input.amountMinor)
    (hseen : ∀ u ∈ s.users.get? input.userId, u.balanceVersion = user.balanceVersion →
      u.balanceMinor = user.balanceMinor)
    (hb : batch (walletBatch input user.balanceMinor after user.balanceVersion) c s = .ok (ns, s')) :
    MoneyMoves cash reward s s' := by
  obtain ⟨n1, s1, n2, s2, h1, h2, rfl⟩ := batch_two_ok hb
  obtain ⟨hn, tu, hu, rfl⟩ := update_ok h1
  obtain ⟨-, tw, hw, rfl⟩ := insert_abort_ok (onChanges_ok h2)
  simp only [Bool.and_assoc] at hn hu hw
  refine swap_moves hu (hw.trans (congrArg _ (swap_entries hu (fun _ => rfl) (fun u hu hp => ?_)
    (fun u hu hp => ?_) fun _ _ _ => rfl))) (fun u hu hp => ?_) rfl
  · rw [swap_changes hn hu, hp, Bool.and_true]
    exact beq_self_eq_true _
  · rw [swap_changes hn hu, hp, Bool.and_false]
  · rw [Bool.and_eq_true, beq_iff_eq] at hp
    refine ⟨hp.2, fun _ => ⟨(hseen u hu hp.2).symm, rfl, ?_⟩⟩
    rw [hafter, hseen u hu hp.2]
    cases input.direction <;> rfl

theorem walletSwaps_moves {order : ShopOrder}
    (hseen : ∀ u ∈ s.users.get? user.id, u.balanceVersion = user.balanceVersion → u.balanceMinor = user.balanceMinor)
    (hb : batch (walletSwaps order user.id user.balanceMinor user.balanceVersion now) c s =
      .ok (ns, s')) : MoneyMoves cash reward s s' := by
  obtain ⟨n1, s1, n2, s2, n3, s3, h1, h2, h3, rfl⟩ := batch_three_ok hb
  refine MoneyMoves.trans ?_ (updateOrders_moves _ _ _ _ _ _ h3)
  obtain ⟨hn, tu, hu, rfl⟩ := update_ok h1
  obtain ⟨-, tw, hw, rfl⟩ := insert_abort_ok (onChanges_ok h2)
  simp only [Bool.and_assoc] at hn hu
  refine swap_moves (e :=
      { userId := user.id, direction := .debit, amountMinor := order.totalMinor
        balanceBeforeMinor := user.balanceMinor, balanceAfterMinor := user.balanceMinor - order.totalMinor
        sourceType := .shopOrder, sourceId := order.id, idempotencyKey := .shopOrder order.id })
    hu (hw.trans (congrArg _ (swap_entries hu (q := fun u => u.balanceVersion == user.balanceVersion + 1 &&
      u.balanceMinor == user.balanceMinor - order.totalMinor && n1 == 1) (fun u => ?_)
      (fun u hu hp => ?_) (fun u hu hp => ?_) fun u hid hbal => ?_))) (fun u hu hp => ?_) rfl
  · simp only [Bool.and_assoc]
  · simp [swapped, swap_changes hn hu, hp]
  · simp [swap_changes hn hu, hp]
  · rw [hid, hbal]
  · simp only [Bool.and_eq_true, beq_iff_eq] at hp
    refine ⟨hp.2.1, fun _ => ⟨(hseen u hu hp.2.1).symm, rfl, ?_⟩⟩
    rw [hseen u hu hp.2.1]

/-! ## The shop's batches -/

theorem PlainStmt.moves (h : PlainStmt False st) : Within (MoneyMoves cash reward) st := by
  cases h with
  | guard p m => exact keeps_money abortWhen_keeps
  | receipts g => exact keeps_money (insert_off rfl)
  | topups p f => exact keeps_money (update_off rfl)
  | fulfill orderId items st h => exact keeps_money (h.keeps (by constructor <;> exact fun _ _ => rfl))
  | outbox g => exact keeps_money (insert_off rfl)
  | users h p f => exact h.elim
  | wallet h g => exact h.elim
  | walletOn h g => exact h.elim
  | rewardEntries h g => exact h.elim
  | holds h g => exact h.elim
  | releaseSale orderId => exact keeps_money (update_off rfl)
  | reserveSale componentId itemId quantity => exact keeps_money (update_off rfl)
  | assets g => exact keeps_money (insert_off rfl)
  | rewards p f => exact updateRewards_moves p f

theorem AttemptStmt.moves (h : AttemptStmt st) : Within (MoneyMoves cash reward) st := by
  cases h with
  | status p f hf hp => exact updateAttempts_moves p f
  | row p f hf hs => exact keeps_money (update_off rfl)
  | new g hg => exact keeps_money (insert_off rfl)

theorem QuietStmt.moves (h : QuietStmt paying ordering False st) : Within (MoneyMoves cash reward) st :=
  h.within (fun _ => keeps_money) (fun _ h => h.moves) (fun _ h => h.moves)
    (fun _ _ _ _ _ => keeps_money (update_off rfl)) (fun _ _ _ => keeps_money (insert_off rfl))
    (fun _ _ _ => keeps_money (insert_off rfl)) (fun _ _ => keeps_money (insertRequired_off rfl))
    (fun _ _ => rfl) (fun _ _ => rfl) fun _ _ => rfl

theorem ShopStmt.moves (h : ShopStmt paying ordering False st) : Within (MoneyMoves cash reward) st := by
  cases h with
  | quiet st h => exact h.moves
  | orders p f hf hv hs => exact updateOrders_moves p f

section Batch

variable {τ : Type} {S : Spec Db Site τ} {A : ShopOrderStatus → Prop}

theorem seen_balance (hkept : ∀ s t, S.rely ∅ s t → UsersKept s t)
    (h : S.Seen (fun s => s.users.get? id) (some user) t) :
    ∀ u ∈ t.users.get? id, u.balanceVersion = user.balanceVersion → u.balanceMinor = user.balanceMinor := by
  obtain ⟨s, -, hr, hs⟩ := h
  exact fun u hu hv => ((hkept s t hr).get hs hu).same hv

theorem ShopBatch.moves {x : Site} {sts : List (Stmt Db)} {u : Db}
    (hkept : ∀ s t, S.rely ∅ s t → UsersKept s t) (h : ShopBatch S A x sts t)
    (hb : batch sts 0 t = .ok (ns, u)) : MoneyMoves cash reward t u := by
  by_cases hx : x.isMoney
  · cases h with
    | walletOrder w user fulfillment e horder huser hful =>
      unfold walletOrderBatch at hb
      rw [append_assoc] at hb
      obtain ⟨ns1, t1, ns2, hb1, hb2, -⟩ := batch_append_ok hb
      refine MoneyMoves.trans (walletSwaps_moves (seen_balance hkept ?_) hb1) ?_
      · obtain ⟨s, hi, hr, hs⟩ := horder
        refine ⟨s, hi, hr, ?_⟩
        simp only [walletPaymentOrder, Option.bind_eq_bind, Option.bind_eq_some_iff] at hs
        obtain ⟨o, -, hs⟩ := hs
        split at hs
        · have huserId : w.user = s.users.get? w.userId := by
            rw [Option.some.injEq] at hs
            rw [← hs]
          rw [huserId] at huser
          rw [show user.id = w.userId from get?_key huser]
          exact huser
        · cases hs
      · refine batch_within .refl (fun _ _ _ => .trans) (fun st hst => ?_) hb2
        rcases mem_append.mp hst with hst | hst
        · rw [mem_singleton.mp hst]
          exact keeps_money (insert_off rfl)
        · have hquiet : QuietStmt False False False st := settleStatements_stmts hful st hst
          exact hquiet.moves
    | reserveBalance order user now horder => exact insertHold_moves hb
    | mutateWallet input user after hamount huser hafter hkey =>
      refine walletBatch_moves hafter (seen_balance hkept ?_) hb
      obtain ⟨s, hi, hr, hs⟩ := huser
      exact ⟨s, hi, hr, (Option.filter_eq_some_iff.mp hs).1⟩
    | _ => exact hx.elim
  · refine batch_within .refl (fun _ _ _ => .trans) (fun st hst => ?_) hb
    have hst := h.stmts st hst
    rw [eq_false hx] at hst
    exact hst.moves

end Batch

end Gmshop
