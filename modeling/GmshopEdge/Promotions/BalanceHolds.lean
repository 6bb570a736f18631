import GmshopEdge.Payments.PaidAttempt
import GmshopEdge.Wallet.Integrity
import GmshopEdge.Lib.Checked

/-!
# The balance reserve of an order

A hold takes cash and reward balance for an order when it is made, and gives both back when it is
released; a payment consumes it. `HoldEntries` says that the entries under the keys of an order are
those its hold says, `HoldsFit` what its state says of the order and of its payment. Both are shown
for a row with its triggers (`updateEach_stored`): those of a hold write the entries, those of an order
move its hold.
-/

namespace Gmshop

open List Sql Stmt Prog Table

/-! ## The entries of a hold -/

def cashEntries (s : Db) (key : WalletKey) : List (Id × WalletDirection × Int) :=
  (s.walletEntries.rows.filter fun e => e.idempotencyKey == key).map fun e =>
    (e.userId, e.direction, e.amountMinor)

def rewardDeltas (s : Db) (key : RewardKey) : List (Id × Int) :=
  (s.rewardEntries.rows.filter fun e => e.idempotencyKey == key).map fun e => (e.userId, e.deltaMinor)

def OrderBalanceHold.cashTaken (h : OrderBalanceHold) : List (Id × WalletDirection × Int) :=
  if 0 < h.cashMinor then [(h.userId, .debit, (h.cashMinor : Int))] else []

def OrderBalanceHold.cashBack (h : OrderBalanceHold) : List (Id × WalletDirection × Int) :=
  if h.state = .released ∧ 0 < h.cashMinor then [(h.userId, .credit, (h.cashMinor : Int))] else []

def OrderBalanceHold.rewardTaken (h : OrderBalanceHold) : List (Id × Int) :=
  if 0 < h.rewardMinor then [(h.userId, -(h.rewardMinor : Int))] else []

def OrderBalanceHold.rewardBack (h : OrderBalanceHold) : List (Id × Int) :=
  if h.state = .released ∧ 0 < h.rewardMinor then [(h.userId, (h.rewardMinor : Int))] else []

def ofHold {α : Type} (g : OrderBalanceHold → List α) (h : Option OrderBalanceHold) : List α :=
  (h.map g).getD []

/-- The entries of order `i` are those its hold `h` says. -/
structure EntriesOf (s : Db) (i : Id) (h : Option OrderBalanceHold) : Prop where
  cashTaken : cashEntries s (.balanceHold i) = ofHold OrderBalanceHold.cashTaken h
  cashBack : cashEntries s (.balanceRelease i) = ofHold OrderBalanceHold.cashBack h
  rewardTaken : rewardDeltas s (.hold i) = ofHold OrderBalanceHold.rewardTaken h
  rewardBack : rewardDeltas s (.release i) = ofHold OrderBalanceHold.rewardBack h

structure HoldEntries (s : Db) : Prop where
  holder : ∀ h ∈ s.holds.rows, ∃ u ∈ s.users.rows, u.id = h.userId
  entries : ∀ i, EntriesOf s i (s.holds.get? i)

/-! ## The state of a hold -/

structure HoldFits (s : Db) (h : OrderBalanceHold) : Prop where
  order : ∃ o, s.orders.get? h.orderId = some o ∧
    h.cashMinor + h.rewardMinor + h.externalMinor = o.totalMinor ∧ (o.status = .paid → h.state = .consumed)
  attempt : h.state = .consumed → 0 < h.externalMinor →
    ∃ a ∈ s.attempts.rows, a.orderId = some h.orderId ∧ a.status = .succeeded

def HoldsFit (s : Db) : Prop := ∀ h ∈ s.holds.rows, HoldFits s h

/-- A hold later on: its parts stay, and so does a state other than `held`. -/
structure HoldLater (h h' : OrderBalanceHold) : Prop where
  orderId : h'.orderId = h.orderId
  userId : h'.userId = h.userId
  cashMinor : h'.cashMinor = h.cashMinor
  rewardMinor : h'.rewardMinor = h.rewardMinor
  externalMinor : h'.externalMinor = h.externalMinor
  state : h.state ≠ .held → h'.state = h.state

theorem HoldLater.refl (h : OrderBalanceHold) : HoldLater h h := ⟨rfl, rfl, rfl, rfl, rfl, fun _ => rfl⟩

theorem HoldLater.trans {a b c : OrderBalanceHold} (h : HoldLater a b) (h' : HoldLater b c) : HoldLater a c where
  orderId := h'.orderId.trans h.orderId
  userId := h'.userId.trans h.userId
  cashMinor := h'.cashMinor.trans h.cashMinor
  rewardMinor := h'.rewardMinor.trans h.rewardMinor
  externalMinor := h'.externalMinor.trans h.externalMinor
  state hs := by
    have hb := h.state hs
    rw [h'.state (by rw [hb]; exact hs), hb]

/-- Every hold of `s` is there in `t`. -/
def HoldsKept (s t : Db) : Prop :=
  ∀ i h, s.holds.get? i = some h → ∃ h', t.holds.get? i = some h' ∧ HoldLater h h'

theorem HoldsKept.refl (s : Db) : HoldsKept s s := fun _ h hh => ⟨h, hh, .refl h⟩

variable {s t u : Db} {st : Stmt Db} {id : Id} {U : Table User} {c : Nat} {h hold old : OrderBalanceHold}
  {ns : List Nat} {p : Db → OrderBalanceHold → Bool} {new : ShopOrder} {ordering paying : Prop} {now : Time}

theorem HoldsKept.trans (h : HoldsKept s t) (h' : HoldsKept t u) : HoldsKept s u := by
  intro i a ha
  obtain ⟨b, hb, hab⟩ := h i a ha
  obtain ⟨c, hc, hbc⟩ := h' i b hb
  exact ⟨c, hc, hab.trans hbc⟩

theorem HoldsKept.of_eq (h : t.holds = s.holds) : HoldsKept s t :=
  fun _ a ha => ⟨a, by rw [h]; exact ha, .refl a⟩

/-! ## Steps -/

/-- What every statement does to the holds, or every group of statements that belong together. -/
structure HoldStep (s t : Db) : Prop where
  users : UsersKept s t
  attempts : AttemptsKept s t
  holds : HoldsKept s t
  entries : HoldEntries s → HoldEntries t
  fits : HoldsFit s → HoldsFit t

theorem HoldStep.refl (s : Db) : HoldStep s s := ⟨.refl s, .refl s, .refl s, id, id⟩

theorem HoldStep.trans (h : HoldStep s t) (h' : HoldStep t u) : HoldStep s u :=
  ⟨h.users.trans h'.users, h.attempts.trans h'.attempts, h.holds.trans h'.holds,
    fun he => h'.entries (h.entries he), fun hf => h'.fits (h.fits hf)⟩

structure SameEntries (s t : Db) : Prop where
  cash : ∀ i, cashEntries t (.balanceHold i) = cashEntries s (.balanceHold i) ∧
    cashEntries t (.balanceRelease i) = cashEntries s (.balanceRelease i)
  reward : ∀ i, rewardDeltas t (.hold i) = rewardDeltas s (.hold i) ∧
    rewardDeltas t (.release i) = rewardDeltas s (.release i)

theorem SameEntries.of_eq (hw : t.walletEntries = s.walletEntries) (hr : t.rewardEntries = s.rewardEntries) :
    SameEntries s t := by
  constructor
  · intro i
    unfold cashEntries
    rw [hw]
    exact ⟨rfl, rfl⟩
  · intro i
    unfold rewardDeltas
    rw [hr]
    exact ⟨rfl, rfl⟩

theorem HoldEntries.keep (h : HoldEntries s) (hu : UsersKept s t) (hh : t.holds = s.holds)
    (he : SameEntries s t) : HoldEntries t := by
  constructor
  · intro x hx
    rw [hh] at hx
    exact hu.mem (h.holder x hx)
  · intro i
    have hi := h.entries i
    rw [hh]
    exact ⟨(he.cash i).1.trans hi.cashTaken, (he.cash i).2.trans hi.cashBack,
      (he.reward i).1.trans hi.rewardTaken, (he.reward i).2.trans hi.rewardBack⟩

theorem HoldsFit.keep (h : HoldsFit s) (hh : t.holds = s.holds) (ha : AttemptsKept s t)
    (ho : ∀ i o, s.orders.get? i = some o → ∃ o', t.orders.get? i = some o' ∧
      o'.totalMinor = o.totalMinor ∧ (o'.status = .paid → o.status = .paid)) : HoldsFit t := by
  intro x hx
  rw [hh] at hx
  obtain ⟨⟨o, hget, hsum, hpaid⟩, hatt⟩ := h x hx
  obtain ⟨o', hget', htotal, hst⟩ := ho _ o hget
  refine ⟨⟨o', hget', hsum.trans htotal.symm, fun hp => hpaid (hst hp)⟩, fun hc hext => ?_⟩
  obtain ⟨a, ha', hao, has⟩ := hatt hc hext
  obtain ⟨a', hget'', hm⟩ := ha _ a (mem_get? ha')
  exact ⟨a', get?_mem hget'', hm.orderId.trans hao, hm.succeeded has⟩

def holdCore (s : Db) :=
  (s.users, s.holds, s.walletEntries, s.rewardEntries, s.orders, s.attempts)

theorem keeps_hold (h : Keeps holdCore st) : Within HoldStep st := by
  intro c s n t hs
  have hk := h c s n t hs
  simp only [holdCore, Prod.mk.injEq] at hk
  obtain ⟨hu, hh, hw, hr, ho, ha⟩ := hk
  have husers : UsersKept s t := ⟨id, by rw [hu, map_id], .refl⟩
  have hattempts : AttemptsKept s t := fun i a hget => ⟨a, by rw [ha]; exact hget, .refl a⟩
  exact ⟨husers, hattempts, .of_eq hh, fun he => he.keep husers hh (.of_eq hw hr),
    fun hf => hf.keep hh hattempts fun i o hget => ⟨o, by rw [ho]; exact hget, rfl, id⟩⟩

/-! ## A hold with its trigger -/

theorem cashEntries_append {es : List WalletEntry} (h : t.walletEntries.rows = s.walletEntries.rows ++ es)
    (key : WalletKey) :
    cashEntries t key = cashEntries s key ++
      (es.filter fun e => e.idempotencyKey == key).map fun e => (e.userId, e.direction, e.amountMinor) := by
  unfold cashEntries
  rw [h, filter_append, map_append]

theorem rewardDeltas_append {es : List RewardEntry} (h : t.rewardEntries.rows = s.rewardEntries.rows ++ es)
    (key : RewardKey) :
    rewardDeltas t key = rewardDeltas s key ++
      (es.filter fun e => e.idempotencyKey == key).map fun e => (e.userId, e.deltaMinor) := by
  unfold rewardDeltas
  rw [h, filter_append, map_append]

theorem cashEntries_transfer {w : User → WalletEntry} {d : WalletDirection} {k : WalletKey}
    (ht : t.walletEntries.rows = s.walletEntries.rows ++
      if 0 < c then (U.rows.filter fun u => u.id == id).map w else []) (hu : ∃ u ∈ U.rows, u.id = id)
    (hk : ∀ u, (w u).idempotencyKey = k)
    (hw : ∀ u, ((w u).userId, (w u).direction, (w u).amountMinor) = (u.id, d, (c : Int))) (key : WalletKey) :
    cashEntries t key = cashEntries s key ++ if key = k ∧ 0 < c then [(id, d, (c : Int))] else [] := by
  rw [cashEntries_append ht]
  obtain ⟨u, rfl, hrows⟩ := users_with hu
  by_cases hc : 0 < c
  · by_cases hkey : key = k
    · simp [hc, hrows, hkey, hk, hw]
    · simp [hc, hrows, hkey, hk, Ne.symm hkey]
  · simp [hc]

theorem rewardDeltas_transfer {r : User → RewardEntry} {delta : Int} {k : RewardKey}
    (ht : t.rewardEntries.rows = s.rewardEntries.rows ++
      if 0 < c then (U.rows.filter fun u => u.id == id).map r else []) (hu : ∃ u ∈ U.rows, u.id = id)
    (hk : ∀ u, (r u).idempotencyKey = k) (hr : ∀ u, ((r u).userId, (r u).deltaMinor) = (u.id, delta))
    (key : RewardKey) :
    rewardDeltas t key = rewardDeltas s key ++ if key = k ∧ 0 < c then [(id, delta)] else [] := by
  rw [rewardDeltas_append ht]
  obtain ⟨u, rfl, hrows⟩ := users_with hu
  by_cases hc : 0 < c
  · by_cases hkey : key = k
    · simp [hc, hrows, hkey, hk, hr]
    · simp [hc, hrows, hkey, hk, Ne.symm hkey]
  · simp [hc]

/-- What the trigger of a hold writes: the entries under its keys, and its user's row. -/
structure HoldTransfer (s t : Db) (cash : WalletKey → List (Id × WalletDirection × Int))
    (reward : RewardKey → List (Id × Int)) : Prop where
  users : UsersKept s t
  holds : t.holds = s.holds
  orders : t.orders = s.orders
  attempts : t.attempts = s.attempts
  cash : ∀ key, cashEntries t key = cashEntries s key ++ cash key
  reward : ∀ key, rewardDeltas t key = rewardDeltas s key ++ reward key

theorem holdRelease_transfer {new : OrderBalanceHold} (hold : old.state = .held)
    (hb : batch (orderBalanceHoldRelease old new) c s = .ok (ns, t)) (hnew : new.state = .released)
    (hu : ∃ u ∈ s.users.rows, u.id = new.userId) :
    HoldTransfer s t (fun key => if key = .balanceRelease new.orderId ∧ 0 < new.cashMinor then
        [(new.userId, .credit, (new.cashMinor : Int))] else [])
      (fun key => if key = .release new.orderId ∧ 0 < new.rewardMinor then
        [(new.userId, (new.rewardMinor : Int))] else []) := by
  have hmoves : MoneyMoves False False s t := orderBalanceHoldRelease_moves hb
  unfold orderBalanceHoldRelease at hb
  rw [if_pos ⟨hold, hnew⟩] at hb
  obtain ⟨n1, s1, n2, s2, n3, s3, h1, h2, h3, rfl⟩ := batch_three_ok hb
  obtain ⟨-, tw, hw, rfl⟩ := insert_abort_ok h1
  obtain ⟨-, tu, hut, rfl⟩ := update_ok h2
  obtain ⟨-, tr, hr, rfl⟩ := insert_abort_ok h3
  exact ⟨hmoves.users, rfl, rfl, rfl, cashEntries_transfer (U := s.users) hw hu (fun _ => rfl) fun _ => rfl,
    rewardDeltas_transfer (U := tu) hr (hmoves.users.mem hu) (fun _ => rfl) fun _ => rfl⟩

theorem holdRelease_idle {new : OrderBalanceHold} (hnew : new.state ≠ .released)
    (hb : batch (orderBalanceHoldRelease old new) c s = .ok (ns, t)) : t = s := by
  unfold orderBalanceHoldRelease at hb
  rw [if_neg fun h => hnew h.2] at hb
  simp only [batch_nil, Except.ok.injEq, Prod.mk.injEq] at hb
  exact hb.2.symm

theorem holdDebit_transfer (hb : batch (orderBalanceHoldDebit hold) c s = .ok (ns, t))
    (hu : ∃ u ∈ s.users.rows, u.id = hold.userId) :
    HoldTransfer s t (fun key => if key = .balanceHold hold.orderId ∧ 0 < hold.cashMinor then
        [(hold.userId, .debit, (hold.cashMinor : Int))] else [])
      (fun key => if key = .hold hold.orderId ∧ 0 < hold.rewardMinor then
        [(hold.userId, -(hold.rewardMinor : Int))] else []) := by
  have hmoves : MoneyMoves False False s t := orderBalanceHoldDebit_moves hb
  obtain ⟨n1, s1, n2, s2, n3, s3, h1, h2, h3, rfl⟩ := batch_three_ok hb
  obtain ⟨-, tw, hw, rfl⟩ := insert_abort_ok h1
  obtain ⟨-, tu, hut, rfl⟩ := update_ok h2
  obtain ⟨-, tr, hr, rfl⟩ := insert_abort_ok h3
  exact ⟨hmoves.users, rfl, rfl, rfl, cashEntries_transfer (U := s.users) hw hu (fun _ => rfl) fun _ => rfl,
    rewardDeltas_transfer (U := tu) hr (hmoves.users.mem hu) (fun _ => rfl) fun _ => rfl⟩

def OrderBalanceHold.moved (st : HoldState) (h : OrderBalanceHold) : OrderBalanceHold :=
  { h with state := st }

theorem HoldLater.moved (hs : h.state = .held) (st : HoldState) :
    HoldLater h (h.moved st) := ⟨rfl, rfl, rfl, rfl, rfl, fun hne => absurd hs hne⟩

structure HoldRow (old : OrderBalanceHold) (st : HoldState) (s t : Db) : Prop where
  users : UsersKept s t
  orders : t.orders = s.orders
  attempts : t.attempts = s.attempts
  holds : t.holds.rows = s.holds.rows.map fun h => if h.orderId = old.orderId then h.moved st else h
  entries : HoldEntries s → HoldEntries t

theorem holds_moved {st : HoldState} (hmem : old ∈ s.holds.rows)
    (ht : t.holds.rows = s.holds.rows.map fun h => if h.orderId = old.orderId then h.moved st else h) (i : Id) :
    t.holds.get? i = if i = old.orderId then some (old.moved st) else s.holds.get? i := by
  rw [get?_map ht fun h => by split <;> rfl]
  by_cases hi : i = old.orderId
  · rw [if_pos hi, hi, show s.holds.get? old.orderId = some old from mem_get? hmem, Option.map_some, if_pos rfl]
  · rw [if_neg hi]
    cases hget : s.holds.get? i with
    | none => rfl
    | some h =>
      have hid : h.orderId = i := get?_key hget
      rw [Option.map_some, if_neg (by rw [hid]; exact hi)]

theorem holdRow_step {st : HoldState} (hold : old.state = .held) (hst : st ≠ .held) (hmem : old ∈ s.holds.rows)
    (h : updateRow Db.holdsT orderBalanceHoldImmutable orderBalanceHoldRelease old (old.moved st) s =
      .ok t) : HoldRow old st s t := by
  obtain ⟨ns1, s1, n, s2, ns2, e1, e2, e3⟩ := updateRow_ok h
  have hs1 : s1 = s := by
    refine batch_keeps (g := fun s => s) (fun st hst => ?_) e1
    simp only [orderBalanceHoldImmutable, mem_cons, not_mem_nil, or_false] at hst
    subst hst
    exact abortWhen_keeps
  subst hs1
  obtain ⟨-, th, hth, rfl⟩ := update_ok e2
  have hrows : th.rows = s1.holds.rows.map fun h =>
      if h.orderId = old.orderId then h.moved st else h := by
    refine hth.trans (map_congr_left fun x hx => ?_)
    by_cases hid : x.orderId = old.orderId
    · have hxo : x = old := eq_of_key hx hmem hid
      rw [hxo, if_pos (by simp), if_pos rfl]
    · rw [if_neg (by simpa [KeyedRow.key] using hid), if_neg hid]
  have hmoves : MoneyMoves False False (Db.holdsT.set s1 th) t := orderBalanceHoldRelease_moves e3
  have hkeep : (t.holds, t.orders, t.attempts) = (th, s1.orders, s1.attempts) :=
    batch_keeps (g := fun s => (s.holds, s.orders, s.attempts)) (fun st hst => by
      unfold orderBalanceHoldRelease at hst
      split at hst
      · exact each_three (insert_off rfl) (update_off rfl) (insert_off rfl) _ hst
      · cases hst) e3
  simp only [Prod.mk.injEq] at hkeep
  obtain ⟨hh, ho, ha⟩ := hkeep
  refine ⟨hmoves.users, ho, ha, by rw [hh]; exact hrows, fun he => ⟨fun x hx => ?_, fun i => ?_⟩⟩
  · rw [hh, hrows] at hx
    obtain ⟨y, hy, rfl⟩ := mem_map.mp hx
    obtain ⟨u, hu, hid⟩ := hmoves.users.mem (he.holder y hy)
    refine ⟨u, hu, hid.trans ?_⟩
    split <;> rfl
  · have hget : t.holds.get? i = if i = old.orderId then some (old.moved st) else s1.holds.get? i :=
      holds_moved hmem (by rw [hh]; exact hrows) i
    obtain ⟨c1, c2, c3, c4⟩ := he.entries i
    rw [hget]
    by_cases hi : i = old.orderId
    · rw [if_pos hi]
      have hold? : s1.holds.get? i = some old := by
        rw [hi]
        exact mem_get? hmem
      rw [hold?] at c1 c2 c3 c4
      have hback : ofHold OrderBalanceHold.cashBack (some old) = [] := by
        simp [ofHold, OrderBalanceHold.cashBack, hold]
      have hback' : ofHold OrderBalanceHold.rewardBack (some old) = [] := by
        simp [ofHold, OrderBalanceHold.rewardBack, hold]
      rw [hback] at c2
      rw [hback'] at c4
      cases st with
      | held => exact absurd rfl hst
      | consumed =>
        obtain rfl := holdRelease_idle (by simp [OrderBalanceHold.moved]) e3
        exact ⟨c1, c2.trans (by simp [ofHold, OrderBalanceHold.cashBack, OrderBalanceHold.moved]), c3,
          c4.trans (by simp [ofHold, OrderBalanceHold.rewardBack, OrderBalanceHold.moved])⟩
      | released =>
        have htr := holdRelease_transfer hold e3 rfl (he.holder old hmem)
        refine ⟨(htr.cash _).trans ?_, (htr.cash _).trans ?_, (htr.reward _).trans ?_, (htr.reward _).trans ?_⟩
        · rw [if_neg (by simp), append_nil]
          exact c1
        · rw [show cashEntries (Db.holdsT.set s1 th) (.balanceRelease i) = [] from c2]
          simp [ofHold, OrderBalanceHold.cashBack, OrderBalanceHold.moved, hi]
        · rw [if_neg (by simp), append_nil]
          exact c3
        · rw [show rewardDeltas (Db.holdsT.set s1 th) (.release i) = [] from c4]
          simp [ofHold, OrderBalanceHold.rewardBack, OrderBalanceHold.moved, hi]
    · rw [if_neg hi]
      cases st with
      | held => exact absurd rfl hst
      | consumed =>
        obtain rfl := holdRelease_idle (by simp [OrderBalanceHold.moved]) e3
        exact ⟨c1, c2, c3, c4⟩
      | released =>
        have htr := holdRelease_transfer hold e3 rfl (he.holder old hmem)
        refine ⟨(htr.cash _).trans ?_, (htr.cash _).trans ?_, (htr.reward _).trans ?_, (htr.reward _).trans ?_⟩
        · rw [if_neg (by simp), append_nil]
          exact c1
        · rw [if_neg (by simp [OrderBalanceHold.moved, hi]), append_nil]
          exact c2
        · rw [if_neg (by simp), append_nil]
          exact c3
        · rw [if_neg (by simp [OrderBalanceHold.moved, hi]), append_nil]
          exact c4

/-- Held rows in their new state, with what their triggers have written. -/
structure HoldsMoved (p : OrderBalanceHold → Bool) (st : HoldState) (s t : Db) : Prop where
  users : UsersKept s t
  orders : t.orders = s.orders
  attempts : t.attempts = s.attempts
  holds : t.holds.rows = s.holds.rows.map fun h => if p h then h.moved st else h
  entries : HoldEntries s → HoldEntries t

theorem updateHolds_moved {st : HoldState} (hst : st ≠ .held) (hp : ∀ s h, p s h = true → h.state = .held)
    {n : Nat} (h : updateHolds p (fun _ h => h.moved st) c s = .ok (n, t)) : HoldsMoved (p s) st s t := by
  have himmutable : ∀ a b, ∀ st ∈ orderBalanceHoldImmutable a b, Keeps (fun s => (Db.holdsT.get s).rows) st := by
    intro a b st hst
    simp only [orderBalanceHoldImmutable, mem_cons, not_mem_nil, or_false] at hst
    subst hst
    exact abortWhen_keeps
  have hrelease : ∀ a b, ∀ st ∈ orderBalanceHoldRelease a b, Keeps (fun s => (Db.holdsT.get s).rows) st := by
    intro a b st hst
    unfold orderBalanceHoldRelease at hst
    split at hst
    · exact each_three (insert_off rfl) (update_off rfl) (insert_off rfl) _ hst
    · cases hst
  have hall : UsersKept s t ∧ t.orders = s.orders ∧ t.attempts = s.attempts ∧ (HoldEntries s → HoldEntries t) := by
    refine updateEach_stored (R := fun s t => UsersKept s t ∧ t.orders = s.orders ∧
      t.attempts = s.attempts ∧ (HoldEntries s → HoldEntries t)) (fun s => ⟨.refl s, rfl, rfl, id⟩)
      (fun _ _ _ hab hbc => ⟨hab.1.trans hbc.1, hbc.2.1.trans hab.2.1, hbc.2.2.1.trans hab.2.2.1,
        fun he => hbc.2.2.2 (hab.2.2.2 he)⟩) himmutable hrelease (fun r hr s1 s2 hmem h1 => ?_) h
    have hrow := holdRow_step (hp s r hr) hst hmem h1
    exact ⟨hrow.users, hrow.orders, hrow.attempts, hrow.entries⟩
  exact ⟨hall.1, hall.2.1, hall.2.2.1,
    updateEach_rows (T := Db.holdsT) (fun _ _ => by rfl) himmutable hrelease h, hall.2.2.2⟩

theorem HoldsMoved.kept {p : OrderBalanceHold → Bool} (hp : ∀ h, p h = true → h.state = .held)
    {st : HoldState} (h : HoldsMoved p st s t) : HoldsKept s t := by
  intro i x hx
  refine ⟨_, (get?_map h.holds (fun h => by split <;> rfl) i).trans (by rw [hx]; rfl), ?_⟩
  dsimp only
  split
  · next hpx => exact .moved (hp x hpx) st
  · exact .refl x

theorem releaseHolds_step (hp : ∀ s h, p s h = true → h.state = .held) :
    Within HoldStep (updateHolds p fun _ h => h.moved .released) := by
  intro c s n t h
  have hm := updateHolds_moved (by simp) hp h
  refine ⟨hm.users, fun i a ha => ⟨a, by rw [hm.attempts]; exact ha, .refl a⟩, hm.kept (hp s), hm.entries,
    fun hf x hx => ?_⟩
  rw [hm.holds] at hx
  obtain ⟨y, hy, rfl⟩ := mem_map.mp hx
  obtain ⟨⟨o, hget, hsum, hpaid⟩, hatt⟩ := hf y hy
  split
  · next hpy =>
    have hheld := hp s y hpy
    refine ⟨⟨o, by rw [hm.orders]; exact hget, hsum, fun hst => ?_⟩, fun hst => by cases hst⟩
    rw [hpaid hst] at hheld
    cases hheld
  · refine ⟨⟨o, by rw [hm.orders]; exact hget, hsum, hpaid⟩, ?_⟩
    rw [hm.attempts]
    exact hatt

/-! ## Orders -/

theorem orderPaidGuards_ok {old : ShopOrder} (h : batch (orderPaidGuards old new) c s = .ok (ns, t)) : t = s ∧
      (new.status = .paid → old.status ≠ .paid → ∀ x ∈ s.holds.rows, x.orderId = new.id →
        x.state ≠ .released ∧ (x.state = .held → 0 < x.externalMinor →
          ∃ a ∈ s.attempts.rows, a.orderId = some new.id ∧ a.status = .succeeded)) := by
  have hts : t = s := batch_keeps (g := fun s => s) (orderPaidGuards_keeps _ old new) h
  subst hts
  refine ⟨rfl, fun hnew hold x hx hxo => ?_⟩
  unfold orderPaidGuards at h
  rw [if_pos ⟨hnew, hold⟩] at h
  obtain ⟨n1, s1, ms1, h1, h, -⟩ := batch_cons_ok h
  obtain ⟨n2, s2, ms2, h2, h, -⟩ := batch_cons_ok h
  obtain ⟨n3, s3, ms3, h3, h, -⟩ := batch_cons_ok h
  obtain ⟨hrel, -, rfl⟩ := abortWhen_ok h1
  obtain ⟨-, -, rfl⟩ := abortWhen_ok h2
  obtain ⟨hext, -, -⟩ := abortWhen_ok h3
  constructor
  · intro hst
    have := exist_false_iff.mp hrel x hx
    simp [hxo, hst] at this
  · intro hst hpos
    rw [Bool.and_eq_false_iff] at hext
    rcases hext with hext | hext
    · have := exist_false_iff.mp hext x hx
      simp [hxo, hst, hpos] at this
    · rw [Bool.not_eq_false'] at hext
      obtain ⟨a, ha, hap⟩ := exist_iff.mp hext
      rw [Bool.and_eq_true, beq_iff_eq, beq_iff_eq] at hap
      exact ⟨a, ha, hap⟩

/-- What `order_balance_lifecycle` makes of the hold of an order that is paid, cancelled or expired. -/
def endedHold (st : ShopOrderStatus) : HoldState := if st = .paid then .consumed else .released

def endsHold (o : ShopOrder) (h : OrderBalanceHold) : Bool :=
  h.orderId == o.id && h.state == .held && (o.status == .paid || o.status == .cancelled || o.status == .expired)

theorem orderBalanceLifecycle_moved {old : ShopOrder} (hb : batch (orderBalanceLifecycle old new) c s = .ok (ns, t)) :
    HoldsMoved (endsHold new) (endedHold new.status) s t := by
  obtain ⟨n1, s1, ms1, h1, hb, -⟩ := batch_cons_ok hb
  have hm : HoldsMoved (endsHold new) (endedHold new.status) s s1 := by
    refine updateHolds_moved (p := fun _ => endsHold new) ?_ (fun _ h hp => ?_) h1
    · unfold endedHold
      split <;> simp
    · simp only [endsHold, Bool.and_eq_true, beq_iff_eq] at hp
      exact hp.1.2
  have hkeep : holdCore t = holdCore s1 := by
    refine batch_keeps (fun st hst => ?_) hb
    exact each_two (insert_off rfl) (update_off rfl) _ hst
  simp only [holdCore, Prod.mk.injEq] at hkeep
  obtain ⟨hu, hh, hw, hr, ho, ha⟩ := hkeep
  have husers : UsersKept s1 t := ⟨id, by rw [hu, map_id], .refl⟩
  exact ⟨hm.users.trans husers, ho.trans hm.orders, ha.trans hm.attempts, by rw [hh]; exact hm.holds,
    fun he => (hm.entries he).keep husers hh (.of_eq hw hr)⟩

theorem HoldsFit.orderRow {old : ShopOrder} (hmove : OrderMove old new) (hold : old ∈ s.orders.rows) (hf : HoldsFit s)
    (hguard : new.status = .paid → old.status ≠ .paid → ∀ x ∈ s.holds.rows, x.orderId = new.id →
      x.state ≠ .released ∧ (x.state = .held → 0 < x.externalMinor →
        ∃ a ∈ s.attempts.rows, a.orderId = some new.id ∧ a.status = .succeeded))
    (ho : t.orders.rows = s.orders.rows.map fun o => if o.id = old.id then new else o)
    (ha : t.attempts = s.attempts) (hh : t.holds.rows = s.holds.rows.map fun h =>
      if endsHold new h then h.moved (endedHold new.status) else h) : HoldsFit t := by
  intro x hx
  rw [hh] at hx
  obtain ⟨y, hy, rfl⟩ := mem_map.mp hx
  obtain ⟨⟨o, hget, hsum, hpaid⟩, hatt⟩ := hf y hy
  have hgett : t.orders.get? y.orderId = some (if o.id = old.id then new else o) := by
    have hkey : ∀ r : ShopOrder, KeyedRow.key (if r.id = old.id then new else r) = KeyedRow.key r := by
      intro r
      split
      · next hid => exact hmove.id.trans hid.symm
      · rfl
    rw [get?_map ho hkey, hget]
    rfl
  have hyo : o.id = y.orderId := get?_key hget
  by_cases hid : o.id = old.id
  · have hoo : o = old := eq_of_key (get?_mem hget) hold hid
    subst hoo
    rw [if_pos rfl] at hgett
    have hyn : y.orderId = new.id := hyo.symm.trans hmove.id.symm
    have hsum' : y.cashMinor + y.rewardMinor + y.externalMinor = new.totalMinor :=
      hsum.trans hmove.totalMinor.symm
    by_cases hnew : new.status = .paid
    · by_cases hheld : y.state = .held
      · have hp : endsHold new y = true := by simp [endsHold, hyn, hheld, hnew]
        have hne : o.status ≠ .paid := fun hop => by
          have := hpaid hop
          rw [hheld] at this
          cases this
        rw [if_pos hp]
        refine ⟨⟨new, hgett, hsum', fun _ => by simp [OrderBalanceHold.moved, endedHold, hnew]⟩, fun _ hext => ?_⟩
        rw [ha]
        obtain ⟨a, ham, hao, has⟩ := (hguard hnew hne y hy hyn).2 hheld hext
        exact ⟨a, ham, hao.trans (congrArg some hyn.symm), has⟩
      · have hp : endsHold new y = false := by simp [endsHold, hheld]
        rw [if_neg (by simp [hp])]
        refine ⟨⟨new, hgett, hsum', fun _ => ?_⟩, by rw [ha]; exact hatt⟩
        by_cases hop : o.status = .paid
        · exact hpaid hop
        · have hnotrel := (hguard hnew hop y hy hyn).1
          cases hs : y.state with
          | held => exact absurd hs hheld
          | consumed => rfl
          | released => exact absurd hs hnotrel
    · refine ⟨⟨new, ?_, ?_, fun h => absurd h hnew⟩, ?_⟩
      · split <;> exact hgett
      · split <;> exact hsum'
      · rw [ha]
        split
        · intro hc
          simp [OrderBalanceHold.moved, endedHold, hnew] at hc
        · exact hatt
  · rw [if_neg hid] at hgett
    have hp : endsHold new y = false := by
      have hne : y.orderId ≠ new.id := fun h => hid (hyo.trans (h.trans hmove.id))
      simp [endsHold, hne]
    rw [if_neg (by simp [hp])]
    exact ⟨⟨o, hgett, hsum, hpaid⟩, by rw [ha]; exact hatt⟩

theorem orderRow_step {old : ShopOrder} (hmove : OrderMove old new) (hmem : old ∈ s.orders.rows)
    (h : updateRow Db.ordersT orderPaidGuards
      (fun old new => promotionCouponRelease old new ++ orderBalanceLifecycle old new) old new s =
        .ok t) : HoldStep s t := by
  obtain ⟨ns1, s1, n, s2, ns2, e1, e2, e3⟩ := updateRow_ok h
  obtain ⟨hs1, hguard⟩ := orderPaidGuards_ok e1
  subst hs1
  obtain ⟨-, torders, hto, rfl⟩ := update_ok e2
  obtain ⟨ms1, s3, ms2, e3, e4, -⟩ := batch_append_ok e3
  have hcoupon : holdCore s3 = holdCore (Db.ordersT.set s1 torders) := by
    refine batch_keeps (fun st hst => ?_) e3
    unfold promotionCouponRelease at hst
    split at hst
    · exact each_two (update_off rfl) (update_off rfl) _ hst
    · cases hst
  simp only [holdCore, Prod.mk.injEq] at hcoupon
  obtain ⟨hu, hh, hw, hr, ho, ha⟩ := hcoupon
  have hm := orderBalanceLifecycle_moved e4
  have husers : UsersKept s1 s3 := ⟨id, by rw [hu, map_id]; rfl, .refl⟩
  have hholds : t.holds.rows = s1.holds.rows.map fun h =>
      if endsHold new h then h.moved (endedHold new.status) else h := by
    rw [hm.holds, hh]
    rfl
  have hattempts : t.attempts = s1.attempts := hm.attempts.trans ha
  refine ⟨husers.trans hm.users, fun i a hget => ⟨a, by rw [hattempts]; exact hget, .refl a⟩, ?_,
    fun he => hm.entries (he.keep husers hh (.of_eq hw hr)), fun hf => ?_⟩
  · intro i x hx
    refine ⟨_, (get?_map hholds (fun h => by split <;> rfl) i).trans (by rw [hx]; rfl), ?_⟩
    dsimp only
    split
    · next hp =>
      simp only [endsHold, Bool.and_eq_true, beq_iff_eq] at hp
      exact .moved hp.1.2 _
    · exact .refl x
  · refine hf.orderRow hmove hmem hguard ?_ hattempts hholds
    rw [hm.orders, ho]
    refine hto.trans (map_congr_left fun o _ => ?_)
    by_cases hid : o.id = old.id
    · rw [if_pos (by simpa [KeyedRow.key] using hid), if_pos hid]
    · rw [if_neg (by simpa [KeyedRow.key] using hid), if_neg hid]

theorem updateOrders_step {p : Db → ShopOrder → Bool} {f : Db → ShopOrder → ShopOrder}
    (hf : ∀ s o, OrderMove o (f s o)) : Within HoldStep (updateOrders p f) := by
  intro c s n t h
  refine updateEach_stored .refl (fun _ _ _ => .trans) (orderPaidGuards_keeps _)
    (orderTriggers_keep (by constructor <;> exact fun _ _ => rfl)) (fun o _ s1 s2 hmem h1 => ?_) h
  exact orderRow_step (hf s o) hmem h1

/-! ## Attempts and other statements -/

theorem ordersKept_step (h : (t.users, t.holds, t.walletEntries, t.rewardEntries, t.attempts) =
      (s.users, s.holds, s.walletEntries, s.rewardEntries, s.attempts))
    (ho : ∀ i o, s.orders.get? i = some o → ∃ o', t.orders.get? i = some o' ∧
      o'.totalMinor = o.totalMinor ∧ (o'.status = .paid → o.status = .paid)) : HoldStep s t := by
  simp only [Prod.mk.injEq] at h
  obtain ⟨hu, hh, hw, hr, ha⟩ := h
  have husers : UsersKept s t := ⟨id, by rw [hu, map_id], .refl⟩
  have hattempts : AttemptsKept s t := fun i a hget => ⟨a, by rw [ha]; exact hget, .refl a⟩
  exact ⟨husers, hattempts, .of_eq hh, fun he => he.keep husers hh (.of_eq hw hr), fun hf => hf.keep hh hattempts ho⟩

theorem attemptsKept_step (ha : AttemptsKept s t)
    (h : (t.users, t.holds, t.walletEntries, t.rewardEntries, t.orders) =
      (s.users, s.holds, s.walletEntries, s.rewardEntries, s.orders)) : HoldStep s t := by
  simp only [Prod.mk.injEq] at h
  obtain ⟨hu, hh, hw, hr, ho⟩ := h
  have husers : UsersKept s t := ⟨id, by rw [hu, map_id], .refl⟩
  exact ⟨husers, ha, .of_eq hh, fun he => he.keep husers hh (.of_eq hw hr),
    fun hf => hf.keep hh ha fun i o hget => ⟨o, by rw [ho]; exact hget, rfl, id⟩⟩

theorem mixedPaymentFailureRelease_step {old new : PaymentAttempt} :
    ∀ st ∈ mixedPaymentFailureRelease old new, Within HoldStep st := by
  intro st hst
  unfold mixedPaymentFailureRelease at hst
  split at hst
  · refine each_two ?_ ?_ _ hst
    · refine releaseHolds_step fun _ h hp => ?_
      rw [Bool.and_eq_true, beq_iff_eq, beq_iff_eq] at hp
      exact hp.2
    · exact updateOrders_step fun _ _ => ⟨rfl, rfl, rfl, rfl⟩
  · cases hst

theorem updateAttempts_step {p : Db → PaymentAttempt → Bool} {f : Db → PaymentAttempt → PaymentAttempt}
    (hp : ∀ s a, p s a = true → AttemptMove a (f s a)) : Within HoldStep (updateAttempts p f) := by
  intro c s n t h
  refine updateEach_stored .refl (fun _ _ _ => .trans) (fun _ _ st hst => by cases hst)
    (mixedPaymentFailureRelease_keeps (by constructor <;> exact fun _ _ => rfl) fun _ _ => rfl)
    (fun a hpa s1 s2 hmem h1 => ?_) h
  obtain ⟨ns1, t1, n1, t2, ns2, e1, e2, e3⟩ := updateRow_ok h1
  obtain ⟨-, rfl⟩ := batch_nil_ok e1
  refine HoldStep.trans ?_ (batch_within .refl (fun _ _ _ => .trans)
    (fun st hst => mixedPaymentFailureRelease_step st hst) e3)
  obtain ⟨-, ta, hta, rfl⟩ := update_ok e2
  have hrows : ta.rows = s1.attempts.rows.map fun x => if x = a then f s a else x := by
    refine hta.trans (map_congr_left fun x hx => ?_)
    by_cases hxa : x = a
    · simp [hxa]
    · have hkey : ¬KeyedRow.key x = KeyedRow.key a := fun h => hxa (eq_of_key hx hmem h)
      rw [if_neg (by simpa using hkey), if_neg hxa]
  refine attemptsKept_step (attempts_mapped hrows fun x => ?_) rfl
  split
  · next hxa =>
    subst hxa
    exact hp s x hpa
  · exact .refl x

theorem usersRow_step {p : Db → User → Bool} {f : Db → User → User}
    (hf : ∀ s u, p s u = true → UserLater u (f s u)) : Within HoldStep (update Db.usersT p f) := by
  intro c s n t h
  obtain ⟨-, tu, hu, rfl⟩ := update_ok h
  have husers : UsersKept s (Db.usersT.set s tu) := by
    refine ⟨_, hu, fun u => ?_⟩
    split
    · next hp => exact hf s u hp
    · exact .refl u
  exact ⟨husers, .refl s, .of_eq rfl, fun he => he.keep husers rfl (.of_eq rfl rfl),
    fun hf => hf.keep rfl (.refl s) fun i o ho => ⟨o, ho, rfl, id⟩⟩

theorem entries_step (hs : SameEntries s t)
    (h : (t.users, t.holds, t.orders, t.attempts) = (s.users, s.holds, s.orders, s.attempts)) :
    HoldStep s t := by
  simp only [Prod.mk.injEq] at h
  obtain ⟨hu, hh, ho, ha⟩ := h
  have husers : UsersKept s t := ⟨id, by rw [hu, map_id], .refl⟩
  have hattempts : AttemptsKept s t := fun i a hget => ⟨a, by rw [ha]; exact hget, .refl a⟩
  exact ⟨husers, hattempts, .of_eq hh, fun he => he.keep husers hh hs,
    fun hf => hf.keep hh hattempts fun i o hget => ⟨o, by rw [ho]; exact hget, rfl, id⟩⟩

def WalletKey.ofHold : WalletKey → Bool
  | .balanceHold _ | .balanceRelease _ => true
  | _ => false

def RewardKey.ofHold : RewardKey → Bool
  | .hold _ | .release _ => true
  | _ => false

theorem walletEntries_step {g : Db → List WalletEntry} (hg : ∀ s, ∀ e ∈ g s, e.idempotencyKey.ofHold = false) :
    Within HoldStep (insert Db.walletEntriesT .abort g) := by
  intro c s n t h
  obtain ⟨-, tw, hw, rfl⟩ := insert_abort_ok h
  have hnone : ∀ key : WalletKey, key.ofHold = true →
      cashEntries (Db.walletEntriesT.set s tw) key = cashEntries s key := by
    intro key hkey
    rw [cashEntries_append hw, filter_eq_nil_iff.mpr, map_nil, append_nil]
    intro e he hek
    rw [beq_iff_eq] at hek
    have hfalse := hg s e he
    rw [hek, hkey] at hfalse
    cases hfalse
  exact entries_step ⟨fun i => ⟨hnone _ rfl, hnone _ rfl⟩, fun i => ⟨rfl, rfl⟩⟩ rfl

theorem rewardEntries_step {g : Db → List RewardEntry} (hg : ∀ s, ∀ e ∈ g s, e.idempotencyKey.ofHold = false) :
    Within HoldStep (insert Db.rewardEntriesT .abort g) := by
  intro c s n t h
  obtain ⟨-, tr, hr, rfl⟩ := insert_abort_ok h
  have hnone : ∀ key : RewardKey, key.ofHold = true →
      rewardDeltas (Db.rewardEntriesT.set s tr) key = rewardDeltas s key := by
    intro key hkey
    rw [rewardDeltas_append hr, filter_eq_nil_iff.mpr, map_nil, append_nil]
    intro e he hek
    rw [beq_iff_eq] at hek
    have hfalse := hg s e he
    rw [hek, hkey] at hfalse
    cases hfalse
  exact entries_step ⟨fun i => ⟨rfl, rfl⟩, fun i => ⟨hnone _ rfl, hnone _ rfl⟩⟩ rfl

theorem updateRewards_step (p : Db → PromotionReward → Bool)
    (f : Db → PromotionReward → PromotionReward) : Within HoldStep (updateRewards p f) := by
  refine updateEach_within .refl (fun _ _ _ => .trans) (fun _ _ _ => forall_mem_nil _)
    (fun _ _ => keeps_hold (update_off rfl)) fun _ _ _ => each_if fun _ => each_two ?_ ?_
  · exact usersRow_step fun _ _ _ => ⟨rfl, Nat.le_refl _, fun _ => rfl⟩
  · refine rewardEntries_step fun s e he => ?_
    obtain ⟨u, -, rfl⟩ := mem_map.mp he
    rfl

/-! ## The shop's statements -/

theorem PlainStmt.holdStep (h : PlainStmt False st) : Within HoldStep st := by
  cases h with
  | guard p m => exact keeps_hold abortWhen_keeps
  | receipts g => exact keeps_hold (insert_off rfl)
  | topups p f => exact keeps_hold (update_off rfl)
  | fulfill orderId items st h => exact keeps_hold (h.keeps (by constructor <;> exact fun _ _ => rfl))
  | outbox g => exact keeps_hold (insert_off rfl)
  | users h p f => exact h.elim
  | wallet h g => exact h.elim
  | walletOn h g => exact h.elim
  | rewardEntries h g => exact h.elim
  | holds h g => exact h.elim
  | releaseSale orderId => exact keeps_hold (update_off rfl)
  | reserveSale componentId itemId quantity => exact keeps_hold (update_off rfl)
  | assets g => exact keeps_hold (insert_off rfl)
  | rewards p f => exact updateRewards_step p f

theorem AttemptStmt.holdStep (h : AttemptStmt st) : Within HoldStep st := by
  cases h with
  | status p f hf hp => exact updateAttempts_step hp
  | row p f hf hs =>
    intro c s n t h
    obtain ⟨-, ta, ha, rfl⟩ := update_ok h
    refine attemptsKept_step (attempts_mapped ha fun a => ?_) rfl
    split
    · exact hf s a
    · exact .refl a
  | new g hg =>
    intro c s n t h
    obtain ⟨-, ta, ha, rfl⟩ := insert_ok h
    exact attemptsKept_step (fun i a hget => ⟨a, get?_append ha hget, .refl a⟩) rfl

theorem insertOrders_step {c : OnConflict} {g : Db → List ShopOrder} : Within HoldStep (insert Db.ordersT c g) := by
  intro k s n t h
  obtain ⟨-, tord, hord, rfl⟩ := insert_ok h
  exact ordersKept_step rfl fun i o ho => ⟨o, get?_append hord ho, rfl, id⟩

theorem QuietStmt.holdStep (h : QuietStmt paying ordering False st) : Within HoldStep st := by
  refine h.within (fun _ => keeps_hold) (fun _ h => h.holdStep) (fun _ h => h.holdStep)
    (fun _ p f hf hs c s n t h => ?_) (fun _ _ _ => insertOrders_step) (fun _ _ _ => keeps_hold (insert_off rfl))
    (fun _ _ => keeps_hold (insertRequired_off rfl)) (fun _ _ => rfl) (fun _ _ => rfl) fun _ _ => rfl
  obtain ⟨-, tord, hord, rfl⟩ := update_ok h
  refine ordersKept_step rfl fun i o ho => ?_
  refine ⟨_, (get?_map hord (fun r => ?_) i).trans (congrArg (Option.map _) ho), ?_⟩
  · split
    · exact (hf s r).id
    · rfl
  · dsimp only
    split
    · exact ⟨(hf s o).totalMinor, fun hp => (hs s o).1.symm.trans hp⟩
    · exact ⟨rfl, id⟩

theorem ShopStmt.holdStep (h : ShopStmt paying ordering False st) : Within HoldStep st := by
  cases h with
  | quiet st h => exact h.holdStep
  | orders p f hf hv hs => exact updateOrders_step hf

theorem walletBatch_step {input : WalletMutation} {before after : Int} {version : Nat}
    (hkey : input.idempotencyKey.ofHold = false) :
    ∀ st ∈ walletBatch input before after version, Within HoldStep st := by
  intro st hst
  refine each_two ?_ ?_ _ hst
  · refine usersRow_step fun s u hp => ?_
    simp only [Bool.and_eq_true, beq_iff_eq] at hp
    exact .bump rfl (congrArg (· + 1) hp.2.symm)
  · refine onChanges_within fun n => walletEntries_step fun s e he => ?_
    obtain ⟨u, -, rfl⟩ := mem_map.mp he
    exact hkey

theorem walletSwaps_step {order : ShopOrder} {userId : Id} {balance : Int} {balanceVersion : Nat} :
    ∀ st ∈ walletSwaps order userId balance balanceVersion now, Within HoldStep st := by
  intro st hst
  refine each_three ?_ ?_ ?_ _ hst
  · refine usersRow_step fun s u hp => ?_
    simp only [Bool.and_eq_true, beq_iff_eq] at hp
    exact .bump rfl (congrArg (· + 1) hp.1.2.symm)
  · refine onChanges_within fun n => walletEntries_step fun s e he => ?_
    obtain ⟨u, -, rfl⟩ := mem_map.mp he
    rfl
  · exact updateOrders_step fun _ o => .paid _ _ o

theorem orderBalanceHoldValidate_ok (h : batch (orderBalanceHoldValidate now hold) c s = .ok (ns, t)) :
    t = s ∧ hold.state = .held ∧ (∃ u ∈ s.users.rows, u.id = hold.userId) ∧
      ∃ o, s.orders.get? hold.orderId = some o ∧ o.status = .pendingPayment ∧
        hold.cashMinor + hold.rewardMinor + hold.externalMinor = o.totalMinor := by
  obtain ⟨n1, s1, ms1, h1, hb, -⟩ := batch_cons_ok h
  obtain ⟨-, rfl⟩ := batch_nil_ok hb
  obtain ⟨hguard, -, rfl⟩ := abortWhen_ok h1
  rw [Bool.not_eq_false', Bool.and_eq_true, beq_iff_eq] at hguard
  obtain ⟨o, hmem, ho⟩ := exist_iff.mp hguard.2
  simp only [Bool.and_eq_true, beq_iff_eq] at ho
  obtain ⟨⟨⟨⟨hid, -⟩, huser⟩, hsum⟩, -⟩ := ho
  obtain ⟨u, hu, hup⟩ := exist_iff.mp huser
  simp only [Bool.and_eq_true, beq_iff_eq] at hup
  exact ⟨rfl, hguard.1, ⟨u, hu, hup.1.1.1⟩, o, get?_eq_some_iff.mpr ⟨hmem, hid.1.1.1.1⟩, hid.1.1.2, hsum⟩

theorem insertHold_step (hb : batch (insertHold now hold) c s = .ok (ns, t)) : HoldStep s t := by
  obtain ⟨ns1, s1, ns2, hb1, hdebit, -⟩ := batch_append_ok hb
  obtain ⟨ns3, s0, ns4, hguard, hrow, -⟩ := batch_append_ok hb1
  obtain ⟨rfl, hheld, huser, o, ho, hst, hsum⟩ := orderBalanceHoldValidate_ok hguard
  obtain ⟨n1, s2, ms1, h1, hrow, -⟩ := batch_cons_ok hrow
  obtain ⟨-, rfl⟩ := batch_nil_ok hrow
  obtain ⟨-, th, hth, rfl⟩ := insert_abort_ok h1
  have htr := holdDebit_transfer hdebit huser
  have hfree : s0.holds.get? hold.orderId = none := get?_append_free hth
  have hget : ∀ i, t.holds.get? i = if i = hold.orderId then some hold else s0.holds.get? i := by
    intro i
    rw [htr.holds]
    exact get?_append_one hth i
  refine ⟨htr.users, fun i a ha => ⟨a, by rw [htr.attempts]; exact ha, .refl a⟩, fun i x hx => ?_,
    fun he => ⟨fun x hx => ?_, fun i => ?_⟩, fun hf x hx => ?_⟩
  · rw [hget i, if_neg]
    · exact ⟨x, hx, .refl x⟩
    · rintro rfl
      rw [hfree] at hx
      cases hx
  · rw [htr.holds] at hx
    rcases mem_append.mp (hth ▸ hx : x ∈ s0.holds.rows ++ [hold]) with hx | hx
    · exact htr.users.mem (he.holder x hx)
    · rw [mem_singleton.mp hx]
      exact htr.users.mem huser
  · obtain ⟨c1, c2, c3, c4⟩ := he.entries i
    rw [hget i]
    by_cases hi : i = hold.orderId
    · -- no hold of this order was there before, and so no entry under its keys
      rw [hi, hfree] at c1 c2 c3 c4
      rw [if_pos hi, hi]
      refine ⟨(htr.cash _).trans ?_, (htr.cash _).trans ?_, (htr.reward _).trans ?_, (htr.reward _).trans ?_⟩
      · rw [show cashEntries (Db.holdsT.set s0 th) (.balanceHold hold.orderId) = [] from c1]
        simp [ofHold, OrderBalanceHold.cashTaken]
      · rw [show cashEntries (Db.holdsT.set s0 th) (.balanceRelease hold.orderId) = [] from c2]
        simp [ofHold, OrderBalanceHold.cashBack, hheld]
      · rw [show rewardDeltas (Db.holdsT.set s0 th) (.hold hold.orderId) = [] from c3]
        simp [ofHold, OrderBalanceHold.rewardTaken]
      · rw [show rewardDeltas (Db.holdsT.set s0 th) (.release hold.orderId) = [] from c4]
        simp [ofHold, OrderBalanceHold.rewardBack, hheld]
    · rw [if_neg hi]
      refine ⟨(htr.cash _).trans ?_, (htr.cash _).trans ?_, (htr.reward _).trans ?_, (htr.reward _).trans ?_⟩
      · rw [if_neg (by simp [hi]), append_nil]
        exact c1
      · rw [if_neg (by simp), append_nil]
        exact c2
      · rw [if_neg (by simp [hi]), append_nil]
        exact c3
      · rw [if_neg (by simp), append_nil]
        exact c4
  · rw [htr.holds] at hx
    have horders : t.orders = s0.orders := htr.orders
    have hattempts : t.attempts = s0.attempts := htr.attempts
    rcases mem_append.mp (hth ▸ hx : x ∈ s0.holds.rows ++ [hold]) with hx | hx
    · obtain ⟨⟨o', hget', hrest⟩, hatt⟩ := hf x hx
      exact ⟨⟨o', by rw [horders]; exact hget', hrest⟩, by rw [hattempts]; exact hatt⟩
    · rw [mem_singleton.mp hx]
      refine ⟨⟨o, by rw [horders]; exact ho, hsum, fun hp => ?_⟩, fun hc => ?_⟩
      · rw [hst] at hp
        cases hp
      · rw [hheld] at hc
        cases hc

theorem ShopBatch.holdStep {τ : Type} {S : Spec Db Site τ} {A : ShopOrderStatus → Prop} {x : Site}
    {sts : List (Stmt Db)} (h : ShopBatch S A x sts t) (hb : batch sts 0 t = .ok (ns, u)) : HoldStep t u := by
  by_cases hx : x.isMoney
  · cases h with
    | walletOrder w user fulfillment e horder huser hful =>
      refine batch_within .refl (fun _ _ _ => .trans) (fun st hst => ?_) hb
      unfold walletOrderBatch at hst
      rw [append_assoc] at hst
      rcases mem_append.mp hst with hst | hst
      · exact walletSwaps_step st hst
      rcases mem_append.mp hst with hst | hst
      · rw [mem_singleton.mp hst]
        exact keeps_hold (insert_off rfl)
      · exact (settleStatements_stmts hful st hst : QuietStmt False False False st).holdStep
    | reserveBalance order user now horder => exact insertHold_step hb
    | mutateWallet input user after hamount huser hafter hkey =>
      refine batch_within .refl (fun _ _ _ => .trans) (walletBatch_step ?_) hb
      rcases hkey with ⟨id, hkey⟩ | ⟨key, hkey⟩ <;> rw [hkey] <;> rfl
    | _ => exact hx.elim
  · refine batch_within .refl (fun _ _ _ => .trans) (fun st hst => ?_) hb
    have hst := h.stmts st hst
    rw [eq_false hx] at hst
    exact hst.holdStep

/-! ## The system -/

/-- The reserves are in order, and with them the accounts that they are taken from. -/
structure HoldBooks (s : Db) : Prop where
  cash : cashAccount.Books s
  reward : rewardAccount.Books s
  entries : HoldEntries s
  fits : HoldsFit s

/-- A hold takes its parts once, gives them back once where it is released, and lets its order be paid
only where it is not released and an external part has been paid. -/
structure HoldConserved (s : Db) (h : OrderBalanceHold) : Prop where
  total : ∃ o, s.orders.get? h.orderId = some o ∧
    h.cashMinor + h.rewardMinor + h.externalMinor = o.totalMinor
  taken : cashEntries s (.balanceHold h.orderId) = h.cashTaken ∧
    rewardDeltas s (.hold h.orderId) = h.rewardTaken
  back : cashEntries s (.balanceRelease h.orderId) = h.cashBack ∧
    rewardDeltas s (.release h.orderId) = h.rewardBack
  released : h.state = .released → ∀ o, s.orders.get? h.orderId = some o → o.status ≠ .paid
  external : ∀ o, s.orders.get? h.orderId = some o → o.status = .paid → 0 < h.externalMinor →
    ∃ a ∈ s.attempts.rows, a.orderId = some h.orderId ∧ a.status = .succeeded

theorem HoldBooks.conserved (hb : HoldBooks s) (hmem : h ∈ s.holds.rows) : HoldConserved s h := by
  obtain ⟨⟨o, ho, hsum, hpaid⟩, hatt⟩ := hb.fits h hmem
  have hget : s.holds.get? h.orderId = some h := mem_get? hmem
  obtain ⟨c1, c2, c3, c4⟩ := hb.entries.entries h.orderId
  rw [hget] at c1 c2 c3 c4
  refine ⟨⟨o, ho, hsum⟩, ⟨c1, c3⟩, ⟨c2, c4⟩, fun hrel o' ho' hp => ?_, fun o' ho' hp hext => ?_⟩
  · obtain rfl : o = o' := Option.some.inj (ho.symm.trans ho')
    rw [hpaid hp] at hrel
    cases hrel
  · obtain rfl : o = o' := Option.some.inj (ho.symm.trans ho')
    exact hatt (hpaid hp) hext

def holdSpec : Spec Db Site Empty :=
  Spec.ofRel HoldBooks anySite (fun _ _ => True) (fun s t => UsersKept s t ∧ HoldsKept s t)
    (fun _ => trivial) (fun s => ⟨.refl s, .refl s⟩)
    fun _ _ _ h h' => ⟨h.1.trans h'.1, h.2.trans h'.2⟩

theorem hold_admits : AdmitsShop holdSpec fun _ => True := by
  intro x sts t ns u hb hi _ hbatch
  have hmoves : MoneyMoves True True t u := hb.moves (fun s t (h : UsersKept s t ∧ HoldsKept s t) => h.1) hbatch
  have hstep := hb.holdStep hbatch
  exact Spec.admits_ofRel ⟨Account.Books.step hi.cash (hmoves.cash trivial),
    Account.Books.step hi.reward (hmoves.reward trivial), hstep.entries hi.entries, hstep.fits hi.fits⟩
    trivial fun _ => ⟨hstep.users, hstep.holds⟩

/-- In every run every hold is conserved, the wallets and the reward balances are what their entries add
up to, and a hold that is released at one point stays released later on, its order unpaid. -/
theorem balance_hold_conservation {s : Db} (h0 : HoldBooks s) {w w' : World Db Site DomainError Unit}
    (hrun : Runs ShopCall.code anySite ⟨s, []⟩ w) (hlater : Runs ShopCall.code anySite w w') :
    (∀ h ∈ w.db.holds.rows, HoldConserved w.db h) ∧
      (∀ u ∈ w.db.users.rows, WalletIntegrity w.db u ∧ u.rewardBalanceMinor = rewardSum w.db u.id) ∧
      ∀ h ∈ w.db.holds.rows, h.state = .released → ∃ h' o, w'.db.holds.get? h.orderId = some h' ∧
        h'.state = .released ∧ w'.db.orders.get? h.orderId = some o ∧ o.status ≠ .paid := by
  have hcode : ∀ (c : ShopCall) (s : Db), HoldBooks s → Prog.Ok holdSpec Prog.anyEnd c.code ∅ s :=
    fun c s _ => (ShopCall.bare hold_admits c (by cases c <;> trivial) s).ok
  have hgood := (Runs.sound holdSpec hcode hrun (good_idle _ h0)).1
  obtain ⟨hgood', hrely⟩ := Runs.sound holdSpec hcode hlater hgood
  have hbooks : HoldBooks w.db := hgood.1
  have hbooks' : HoldBooks w'.db := hgood'.1
  refine ⟨fun h hmem => hbooks.conserved hmem, fun u hu => ?_, fun h hmem hrel => ?_⟩
  · exact ⟨WalletBooks.integrity hbooks.cash hu, rewardBooks_sum hbooks.reward hu⟩
  · obtain ⟨h', hget', hkept⟩ := hrely.2 h.orderId h (mem_get? hmem)
    have hrel' : h'.state = .released := (hkept.state (by rw [hrel]; decide)).trans hrel
    have hcons := hbooks'.conserved (get?_mem hget')
    have hid : h'.orderId = h.orderId := get?_key hget'
    obtain ⟨o, ho, -⟩ := hcons.total
    rw [hid] at ho
    exact ⟨h', o, hget', hrel', ho, hcons.released hrel' o (by rw [hid]; exact ho)⟩

theorem HoldBooks.start (hcash : cashAccount.Books s) (hreward : rewardAccount.Books s)
    (hh : s.holds.rows = []) (hw : ∀ e ∈ s.walletEntries.rows, e.idempotencyKey.ofHold = false)
    (hr : ∀ e ∈ s.rewardEntries.rows, e.idempotencyKey.ofHold = false) : HoldBooks s := by
  have hnone : ∀ i, s.holds.get? i = none := by
    intro i
    unfold get?
    rw [hh]
    rfl
  have hcashNone : ∀ key : WalletKey, key.ofHold = true → cashEntries s key = [] := by
    intro key hkey
    unfold cashEntries
    rw [filter_eq_nil_iff.mpr, map_nil]
    intro e he hek
    have hfalse := hw e he
    rw [beq_iff_eq.mp hek, hkey] at hfalse
    cases hfalse
  have hrewardNone : ∀ key : RewardKey, key.ofHold = true → rewardDeltas s key = [] := by
    intro key hkey
    unfold rewardDeltas
    rw [filter_eq_nil_iff.mpr, map_nil]
    intro e he hek
    have hfalse := hr e he
    rw [beq_iff_eq.mp hek, hkey] at hfalse
    cases hfalse
  refine ⟨hcash, hreward, ⟨fun h hmem => ?_, fun i => ?_⟩, fun h hmem => ?_⟩
  · rw [hh] at hmem
    cases hmem
  · rw [hnone i]
    exact ⟨hcashNone _ rfl, hcashNone _ rfl, hrewardNone _ rfl, hrewardNone _ rfl⟩
  · rw [hh] at hmem
    cases hmem

/-! ## A run -/

/-- A user with cash of 50 and a reward balance of 20, and two orders of 100. -/
def reservingDb : Db where
  users := .ok [{ id := 1, balanceMinor := 50, rewardBalanceMinor := 20 }]
  orders := .ok [
    { id := 1, status := .pendingPayment, version := 1, totalMinor := 100, userId := some 1, expiresAt := 50 },
    { id := 2, status := .pendingPayment, version := 1, totalMinor := 100, userId := some 1, expiresAt := 50 }]
  walletEntries := .ok [
    { userId := 1, direction := .credit, amountMinor := 50, balanceBeforeMinor := 0, balanceAfterMinor := 50
      sourceType := .adjustment, sourceId := 1, idempotencyKey := .other 1 }]
  rewardEntries := .ok [ { userId := 1, deltaMinor := 20, balanceAfterMinor := 20, idempotencyKey := .earned 9 }]
  channels := .ok [{ id := 1, provider := .stripe }]

/-- The first order is reserved and its rest is paid; the second is reserved and expires. -/
def reservedRun : World Db Site DomainError Unit :=
  World.exec ShopCall.code anySite ⟨reservingDb, []⟩ (oneByOne [.reserveBalance 1 1 5,
      .createPayment ⟨1, 1, 1⟩ ⟨1, 6, true, fun amount => .ok (amount, 0, 2), .ok (.provider 1), 6⟩,
      .webhook 1 (.ok { providerEventId := .provider 1, providerPaymentId := .provider 1
                        type := .succeeded, amountMinor := some 30, payloadDigest := 1 })
        ⟨7, fun _ => ⟨1, 1, 1, 1⟩⟩,
      .adjustWallet 1 .credit 40 2, .reserveBalance 2 1 8, .expire 60 10] 12)

def paidTooLateRun : World Db Site DomainError Unit :=
  World.exec ShopCall.code anySite reservedRun
    (.start (.completeWallet 2 1 0 ⟨61, fun _ => ⟨2, 2, 2, 2⟩⟩) :: List.replicate 12 (.run 6))

theorem balance_hold_conservation_reservedRun : reservedRun.db.holds.rows = [
      { orderId := 1, userId := 1, cashMinor := 50, rewardMinor := 20, externalMinor := 30
        state := .consumed },
      { orderId := 2, userId := 1, cashMinor := 40, rewardMinor := 0, externalMinor := 60
        state := .released }] ∧
    (∀ h ∈ reservedRun.db.holds.rows, HoldConserved reservedRun.db h) ∧
    (∀ u ∈ reservedRun.db.users.rows,
      WalletIntegrity reservedRun.db u ∧ u.rewardBalanceMinor = rewardSum reservedRun.db u.id) ∧
    ∀ h ∈ reservedRun.db.holds.rows, h.state = .released → ∃ h' o,
      paidTooLateRun.db.holds.get? h.orderId = some h' ∧ h'.state = .released ∧
        paidTooLateRun.db.orders.get? h.orderId = some o ∧ o.status ≠ .paid := by
  have h0 : HoldBooks reservingDb := by
    refine .start ?_ ?_ rfl (by decide) (by decide)
    · intro u hu
      rw [mem_singleton.mp hu]
      exact ⟨50, ⟨rfl, rfl, rfl⟩, rfl⟩
    · intro u hu
      rw [mem_singleton.mp hu]
      exact ⟨20, ⟨rfl, rfl⟩, rfl⟩
  have hrun : Runs ShopCall.code anySite ⟨reservingDb, []⟩ reservedRun :=
    World.exec_runs ShopCall.code anySite _ _
  have hlater : Runs ShopCall.code anySite reservedRun paidTooLateRun :=
    World.exec_runs ShopCall.code anySite _ _
  exact ⟨by set_option maxRecDepth 50000 in decide, balance_hold_conservation h0 hrun hlater⟩

/-! ## Between two points of a run -/

/-- Whatever calls do in between, no payment attempt is lost or moves to another order, one that succeeded stays so, and
a reserve keeps its parts and, once it is consumed or released, its state. -/
theorem reserves_only_forward {s : Db} {w v : World Db Site DomainError Unit}
    (hrun : Runs ShopCall.code anySite ⟨s, []⟩ w) (hlater : Runs ShopCall.code anySite w v) :
    AttemptsKept w.db v.db ∧ HoldsKept w.db v.db := by
  have hstep : HoldStep w.db v.db := ShopCall.later (f := fun c => c) (A := fun _ => True) .refl
    (fun _ _ _ => .trans) (by rintro (_ | _) <;> trivial) (fun h hb => h.holdStep hb) hrun hlater
  exact ⟨hstep.attempts, hstep.holds⟩

theorem reserves_only_forward_reservedRun :
    AttemptsKept reservedRun.db paidTooLateRun.db ∧ HoldsKept reservedRun.db paidTooLateRun.db :=
  reserves_only_forward (World.exec_runs _ _ ⟨reservingDb, []⟩ _) (World.exec_runs _ _ _ _)

end Gmshop
