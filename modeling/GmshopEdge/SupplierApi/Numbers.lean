import GmshopEdge.Lib.Guarantee
import GmshopEdge.Payments.Statements
import GmshopEdge.SupplierApi.Orders
import GmshopEdge.Lib.Checked

/-!
# Order numbers of the supplier API

`createSupplierApiOrder` inserts an order together with the row of its number and pays afterwards.
A later call under the number answers from the row, and refuses one whose order was closed unpaid,
which it knows by the row's state. `cancelUnpaidApiOrder` writes that state with the order;
`expireStoreOrders` does not (`apiCurrent`).
-/

namespace Gmshop

open List Sql Stmt Prog Table

/-! ## The property -/

def ShopOrder.closedUnpaid (o : ShopOrder) : Prop :=
  o.paidMinor = 0 ∧ (o.status = .cancelled ∨ o.status = .expired)

def WalletEntry.pays (e : WalletEntry) (orderId : Id) : Prop :=
  e.direction = .debit ∧ e.sourceType = .shopOrder ∧ e.sourceId = orderId

def EntryKeyed (e : WalletEntry) : Prop :=
  e.direction = .debit → e.sourceType = .shopOrder → e.idempotencyKey = .shopOrder e.sourceId

structure RowState (a : SupplierApiOrder) (o : ShopOrder) : Prop where
  waiting : o.status = .pendingPayment → a.state = .processing ∨ a.state = .cancelled
  closed : o.closedUnpaid → a.state = .cancelled

/-- Rows and orders of the API belong to each other, and a debit to its order. -/
structure ApiBooks (s : Db) : Prop where
  linked : ∀ a ∈ s.supplierApiOrders.rows, ∃ o, s.orders.get? a.shopOrderId = some o ∧
    o.idempotencyKey = some a.key ∧ RowState a o
  rows : ∀ o ∈ s.orders.rows, ∀ k, o.idempotencyKey = some k →
    ∃ a ∈ s.supplierApiOrders.rows, a.shopOrderId = o.id ∧ a.key = k
  debits : ∀ e ∈ s.walletEntries.rows, EntryKeyed e ∨
    ∃ o, s.orders.get? e.sourceId = some o ∧ o.idempotencyKey = none

/-- The answer names the row of the number, which has this content, and its order. -/
def NamesOrder (s : Db) (q : ApiOrderRequest) (r : ApiOrderReply) : Prop :=
  ∃ a o, s.supplierApiOrders.get? r.orderId = some a ∧ a.key = q.key ∧ a.requestDigest = q.input ∧
    s.orders.get? a.shopOrderId = some o ∧ o.idempotencyKey = some q.key

/-- The condition: an expiry leaves alone the unpaid orders of rows that are not cancelled. And the
random id of a new order is new. -/
def apiCurrent (x : Site) (s : Db) : Prop :=
  match x with
  | .expireStoreOrder orderId _ =>
    (s.orderIs orderId (·.status == .pendingPayment) &&
      s.supplierApiOrders.exist fun a => a.shopOrderId == orderId && a.state != .cancelled) = false
  | .createSupplierApiOrder orderId _ => (s.orders.exist fun o => o.id == orderId) = false
  | _ => True

instance (x : Site) (s : Db) : Decidable (apiCurrent x s) := by
  casesm Site <;> dsimp only [apiCurrent] <;> infer_instance

/-! ## Entries -/

/-- The entries that are new satisfy `P`. -/
def NewEntries (P : WalletEntry → Prop) (s t : Db) : Prop :=
  ∀ e ∈ t.walletEntries.rows, e ∈ s.walletEntries.rows ∨ P e

variable {s t : Db} {st : Stmt Db} {p : Db → OrderBalanceHold → Bool}
  {f : Db → OrderBalanceHold → OrderBalanceHold} {ns : List Nat} {q : ApiOrderRequest} {r : ApiOrderReply}
  {o o' : ShopOrder} {k : ApiOrderKey} {a : SupplierApiOrder} {version : Nat} {apiOrderId orderId : Id}
  {now : Time}

section Entries

variable {P : WalletEntry → Prop}

theorem NewEntries.of_eq (h : t.walletEntries = s.walletEntries) : NewEntries P s t :=
  fun _ he => Or.inl (by rw [← h]; exact he)

theorem NewEntries.trans {a b c : Db} (h : NewEntries P a b) (h' : NewEntries P b c) : NewEntries P a c :=
  fun e he => (h' e he).elim (fun hb => h e hb) Or.inr

theorem keeps_newEntries (h : Keeps Db.walletEntries st) : Within (NewEntries P) st :=
  fun c s n s' hs => .of_eq (h c s n s' hs)

theorem insertEntries_new {g : Db → List WalletEntry} (hg : ∀ s, ∀ e ∈ g s, P e) :
    Within (NewEntries P) (insert Db.walletEntriesT .abort g) := by
  intro c s n s' h
  obtain ⟨-, t, ht, rfl⟩ := insert_abort_ok h
  intro e he
  have he' : e ∈ t.rows := he
  rw [ht] at he'
  exact (mem_append.mp he').imp_right (hg s e)

section

variable (hP : ∀ e : WalletEntry, e.direction = .credit → P e)
include hP

theorem updateHolds_newEntries : Within (NewEntries P) (updateHolds p f) := by
  refine updateEach_within (fun _ => .of_eq rfl) (fun _ _ _ => .trans)
    (fun _ _ _ => forall_mem_singleton.mpr (keeps_newEntries abortWhen_keeps))
    (fun _ _ => keeps_newEntries (update_off rfl)) fun _ _ _ => each_if fun _ => each_three ?_ ?_ ?_
  · refine insertEntries_new fun s e he => hP e ?_
    split at he
    · obtain ⟨u, -, rfl⟩ := mem_map.mp he
      rfl
    · cases he
  · exact keeps_newEntries (update_off rfl)
  · exact keeps_newEntries (insert_off rfl)

theorem updateOrders_newEntries {p : Db → ShopOrder → Bool} {f : Db → ShopOrder → ShopOrder} :
    Within (NewEntries P) (updateOrders p f) := by
  refine updateEach_within (fun _ => .of_eq rfl) (fun _ _ _ => .trans)
    (fun _ r _ st hst => keeps_newEntries (orderPaidGuards_keeps _ r _ st hst))
    (fun _ _ => keeps_newEntries (update_off rfl)) fun _ _ _ => each_append (each_if fun _ => ?_) ?_
  · exact each_two (keeps_newEntries (update_off rfl)) (keeps_newEntries (update_off rfl))
  · exact each_three (updateHolds_newEntries hP) (keeps_newEntries (insert_off rfl)) (keeps_newEntries (update_off rfl))

end

end Entries

theorem credit_keyed (e : WalletEntry) (h : e.direction = .credit) : EntryKeyed e := by
  intro hd
  rw [h] at hd
  cases hd

/-! ## What a batch does to the orders and their rows -/

/-- The orders move by `B`, the rows stay, and the debits that are new are keyed. -/
structure ApiMove (B : ShopOrder → ShopOrder → Prop) (s t : Db) : Prop where
  orders : ∃ f : ShopOrder → ShopOrder, t.orders.rows = s.orders.rows.map f ∧
    ∀ o, (f o).id = o.id ∧ (f o).idempotencyKey = o.idempotencyKey ∧ (f o = o ∨ B o (f o))
  rows : t.supplierApiOrders = s.supplierApiOrders
  entries : NewEntries EntryKeyed s t

def apiCore (s : Db) : Table ShopOrder × Table SupplierApiOrder × Table WalletEntry :=
  (s.orders, s.supplierApiOrders, s.walletEntries)

section Move

variable {B : ShopOrder → ShopOrder → Prop}

theorem ApiMove.of_core (h : apiCore t = apiCore s) : ApiMove B s t := by
  simp only [apiCore, Prod.mk.injEq] at h
  refine ⟨⟨fun o => o, ?_, fun o => ⟨rfl, rfl, Or.inl rfl⟩⟩, h.2.1, .of_eq h.2.2⟩
  rw [h.1]
  exact (map_id _).symm

theorem ApiMove.trans (hB : ∀ a b c, B a b → B b c → B a c) {u : Db} (h : ApiMove B s t) (h' : ApiMove B t u) :
    ApiMove B s u := by
  obtain ⟨f, hf, hfs⟩ := h.orders
  obtain ⟨g, hg, hgs⟩ := h'.orders
  refine ⟨⟨g ∘ f, by rw [hg, hf, map_map], fun o => ?_⟩, h'.rows.trans h.rows, h.entries.trans h'.entries⟩
  obtain ⟨hid, hkey, hb⟩ := hfs o
  obtain ⟨hid', hkey', hb'⟩ := hgs (f o)
  refine ⟨hid'.trans hid, hkey'.trans hkey, ?_⟩
  dsimp only [Function.comp_apply]
  rcases hb' with hsame | hb'
  · rw [hsame]
    exact hb
  · rcases hb with hsame | hb
    · rw [hsame] at hb' ⊢
      exact Or.inr hb'
    · exact Or.inr (hB _ _ _ hb hb')

theorem keeps_apiMove (h : Keeps apiCore st) : Within (ApiMove B) st :=
  fun c s n s' hs => .of_core (h c s n s' hs)

theorem updateOrders_apiMove {p : Db → ShopOrder → Bool} {f : Db → ShopOrder → ShopOrder}
    (hid : ∀ s o, (f s o).id = o.id) (hkey : ∀ s o, (f s o).idempotencyKey = o.idempotencyKey)
    (hB : ∀ s o, p s o = true → B o (f s o)) : Within (ApiMove B) (updateOrders p f) := by
  intro c s n s' h
  refine ⟨⟨fun o => if p s o then f s o else o, (updateOrders_rows hid h).2, fun o => ?_⟩, ?_,
    updateOrders_newEntries credit_keyed c s n s' h⟩
  · dsimp only
    split
    · next hp => exact ⟨hid s o, hkey s o, Or.inr (hB s o hp)⟩
    · exact ⟨rfl, rfl, Or.inl rfl⟩
  · exact Keeps.eq (g := Db.supplierApiOrders)
      (updateOrders_keeps (by constructor <;> exact fun _ _ => rfl) fun _ _ => rfl) h

theorem batch_apiMove (hB : ∀ a b c, B a b → B b c → B a c) {sts : List (Stmt Db)}
    (hsts : ∀ st ∈ sts, Within (ApiMove B) st) {c : Nat} (hb : batch sts c s = .ok (ns, t)) : ApiMove B s t :=
  batch_within (fun _ => .of_core rfl) (fun _ _ _ => .trans hB) hsts hb

end Move

/-- What the others see: orders and rows of the API stay what they are. -/
structure ApiKept (s t : Db) : Prop where
  orders : ∀ id o, s.orders.get? id = some o →
    ∃ o', t.orders.get? id = some o' ∧ o'.idempotencyKey = o.idempotencyKey
  rows : ∀ id a, s.supplierApiOrders.get? id = some a → ∃ a', t.supplierApiOrders.get? id = some a' ∧
    a'.shopOrderId = a.shopOrderId ∧ a'.key = a.key ∧ a'.requestDigest = a.requestDigest

theorem ApiKept.refl (s : Db) : ApiKept s s :=
  ⟨fun _ o ho => ⟨o, ho, rfl⟩, fun _ a ha => ⟨a, ha, rfl, rfl, rfl⟩⟩

theorem ApiKept.trans (s t u : Db) (h : ApiKept s t) (h' : ApiKept t u) : ApiKept s u := by
  constructor
  · intro id o ho
    obtain ⟨o', ho', hk⟩ := h.orders id o ho
    obtain ⟨o'', ho'', hk'⟩ := h'.orders id o' ho'
    exact ⟨o'', ho'', hk'.trans hk⟩
  · intro id a ha
    obtain ⟨a', ha', hs, hk, hd⟩ := h.rows id a ha
    obtain ⟨a'', ha'', hs', hk', hd'⟩ := h'.rows id a' ha'
    exact ⟨a'', ha'', hs'.trans hs, hk'.trans hk, hd'.trans hd⟩

theorem NamesOrder.later (h : NamesOrder s q r) (hk : ApiKept s t) : NamesOrder t q r := by
  obtain ⟨a, o, ha, hkey, hdig, ho, hok⟩ := h
  obtain ⟨a', ha', hs, hkey', hdig'⟩ := hk.rows _ a ha
  obtain ⟨o', ho', hok'⟩ := hk.orders _ o ho
  exact ⟨a', o', ha', hkey'.trans hkey, hdig'.trans hdig, by rw [hs]; exact ho', hok'.trans hok⟩

section Move

variable {B : ShopOrder → ShopOrder → Prop} {s t : Db}

section

variable (h : ApiMove B s t)
include h

theorem ApiMove.kept : ApiKept s t := by
  obtain ⟨f, hf, hfs⟩ := h.orders
  refine ⟨fun id o ho => ⟨f o, ?_, (hfs o).2.1⟩, fun id a ha => ⟨a, by rw [h.rows]; exact ha, rfl, rfl, rfl⟩⟩
  rw [get?_map hf fun o => (hfs o).1, ho]
  rfl

theorem ApiMove.order {id : Id} (ho : s.orders.get? id = some o) :
    ∃ o', t.orders.get? id = some o' ∧ o'.idempotencyKey = o.idempotencyKey ∧ (o' = o ∨ B o o') := by
  obtain ⟨f, hf, hfs⟩ := h.orders
  refine ⟨f o, ?_, (hfs o).2⟩
  rw [get?_map hf fun o => (hfs o).1, ho]
  rfl

theorem ApiMove.debits (hs : ApiBooks s) : ∀ e ∈ t.walletEntries.rows,
    EntryKeyed e ∨ ∃ o, t.orders.get? e.sourceId = some o ∧ o.idempotencyKey = none := by
  intro e he
  rcases h.entries e he with hold | hnew
  · refine (hs.debits e hold).imp_right ?_
    rintro ⟨o, ho, hkey⟩
    obtain ⟨o', ho', hkey', -⟩ := h.order ho
    exact ⟨o', ho', hkey'.trans hkey⟩
  · exact Or.inl hnew

theorem ApiMove.rowOf (hs : ApiBooks s) (ho' : o' ∈ t.orders.rows) (hk : o'.idempotencyKey = some k) :
    ∃ a ∈ s.supplierApiOrders.rows, a.shopOrderId = o'.id ∧ a.key = k := by
  obtain ⟨f, hf, hfs⟩ := h.orders
  rw [hf] at ho'
  obtain ⟨o, ho, rfl⟩ := mem_map.mp ho'
  obtain ⟨hid, hkey, -⟩ := hfs o
  obtain ⟨a, ha, hao, hak⟩ := hs.rows o ho k (hkey.symm.trans hk)
  exact ⟨a, ha, hao.trans hid.symm, hak⟩

theorem ApiMove.books (hs : ApiBooks s)
    (hB : ∀ a ∈ s.supplierApiOrders.rows, ∀ o o', s.orders.get? a.shopOrderId = some o → RowState a o →
      B o o' → RowState a o') : ApiBooks t where
  linked a ha := by
    rw [h.rows] at ha
    obtain ⟨o, ho, hkey, hstate⟩ := hs.linked a ha
    obtain ⟨o', ho', hkey', hmove⟩ := h.order ho
    refine ⟨o', ho', hkey'.trans hkey, ?_⟩
    rcases hmove with rfl | hb
    · exact hstate
    · exact hB a ha o o' ho hstate hb
  rows o' ho' k hk := by
    rw [h.rows]
    exact h.rowOf hs ho' hk
  debits := h.debits hs

end

end Move

/-! ## The batches of the shop -/

def BecomesPaid (_ o' : ShopOrder) : Prop := o'.status = .paid

theorem paid_rowState (h : o'.status = .paid) : RowState a o' := by
  constructor
  · intro hs
    rw [h] at hs
    cases hs
  · rintro ⟨-, hs | hs⟩
    · rw [h] at hs
      cases hs
    · rw [h] at hs
      cases hs

theorem walletOrder_apiMove {τ : Type} {S : Spec Db Site τ} {order : ShopOrder} {userId : Id} {balance : Int}
    {fulfillment : List (Stmt Db)} {e : PaymentEnv} (hful : Fulfills S order.id e fulfillment t) :
    ∀ st ∈ walletOrderBatch order userId balance version fulfillment e.now, Within (ApiMove BecomesPaid) st := by
  intro st hst
  simp only [walletOrderBatch, walletSwaps, settleStatements, mem_append, mem_cons,
    not_mem_nil, or_false] at hst
  rcases hst with ((rfl | rfl | rfl) | rfl) | hst | rfl | rfl
  · exact keeps_apiMove (update_off rfl)
  · refine onChanges_within fun n c s m s' h => ?_
    refine ⟨⟨fun o => o, ?_, fun o => ⟨rfl, rfl, Or.inl rfl⟩⟩, ?_, ?_⟩
    · rw [show s'.orders = s.orders from Keeps.eq (insert_keeps (g := Db.orders) fun _ _ => rfl) h]
      exact (map_id _).symm
    · exact Keeps.eq (insert_keeps (g := Db.supplierApiOrders) fun _ _ => rfl) h
    · refine insertEntries_new (fun s x hx => ?_) c s m s' h
      obtain ⟨u, -, rfl⟩ := mem_map.mp hx
      exact fun _ _ => rfl
  · exact updateOrders_apiMove (fun _ _ => rfl) (fun _ _ => rfl) fun _ _ _ => rfl
  · exact keeps_apiMove (insert_off rfl)
  · exact keeps_apiMove (fulfillment_keeps hful (by constructor <;> exact fun _ _ => rfl) st hst)
  · exact keeps_apiMove (update_off rfl)
  · exact keeps_apiMove (insert_off rfl)

def Closes (orderId : Id) (o o' : ShopOrder) : Prop :=
  o.id = orderId ∧ o.status = .pendingPayment ∧ o'.status ≠ .pendingPayment

theorem Closes.trans (a b c : ShopOrder) (h : Closes orderId a b) (h' : Closes orderId b c) : Closes orderId a c :=
  ⟨h.1, h.2.1, h'.2.2⟩

theorem updateHolds_apiMove {B : ShopOrder → ShopOrder → Prop} : Within (ApiMove B) (updateHolds p f) := by
  intro c s n s' h
  have hkeeps := Keeps.eq (g := fun s => (s.orders, s.supplierApiOrders))
    (updateHolds_keeps (by constructor <;> exact fun _ _ => rfl)) h
  simp only [Prod.mk.injEq] at hkeeps
  refine ⟨⟨fun o => o, ?_, fun o => ⟨rfl, rfl, Or.inl rfl⟩⟩, hkeeps.2, updateHolds_newEntries credit_keyed c s n s' h⟩
  rw [hkeeps.1]
  exact (map_id _).symm

theorem updateAttempts_apiMove {p : Db → PaymentAttempt → Bool} {f : Db → PaymentAttempt → PaymentAttempt}
    (hp : ∀ s a, p s a = true → (f s a).orderId = some orderId) :
    Within (ApiMove (Closes orderId)) (updateAttempts p f) := by
  refine updateEach_within (fun _ => .of_core rfl) (fun _ _ _ => .trans Closes.trans)
    (fun _ _ _ => forall_mem_nil _) (fun _ _ => keeps_apiMove (update_off rfl))
    fun s r hr => each_if fun _ => each_two ?_ ?_
  · exact updateHolds_apiMove
  · refine updateOrders_apiMove (fun _ _ => rfl) (fun _ _ => rfl) fun t o ho => ?_
    simp only [Bool.and_eq_true, beq_iff_eq] at ho
    rw [hp s r hr, Option.some.injEq] at ho
    exact ⟨ho.1.1, ho.1.2, fun hn => nomatch hn⟩

theorem expire_apiMove (orderId : Id) (version : Nat) (now : Time) :
    ∀ st ∈ expireBatch orderId version now, Within (ApiMove (Closes orderId)) st := by
  intro st hst
  refine each_six ?_ ?_ ?_ ?_ ?_ ?_ _ hst
  · refine updateOrders_apiMove (fun _ _ => rfl) (fun _ _ => rfl) fun s o ho => ?_
    rw [Bool.and_eq_true] at ho
    obtain ⟨hid, hstatus, -⟩ : o.id = orderId ∧ o.status = .pendingPayment ∧ o.version = version := by
      simpa [orderCas, and_assoc] using ho.1
    exact ⟨hid, hstatus, fun hn => nomatch hn⟩
  · exact keeps_apiMove (update_off rfl)
  · exact keeps_apiMove (update_off rfl)
  · refine updateAttempts_apiMove fun s a ha => ?_
    simp only [Bool.and_eq_true, beq_iff_eq] at ha
    exact ha.1.1
  · exact keeps_apiMove (insert_off rfl)
  · exact keeps_apiMove (update_off rfl)

theorem expire_books (hs : ApiBooks s) (hc : apiCurrent (.expireStoreOrder orderId version) s)
    (hb : batch (expireBatch orderId version now) 0 s = .ok (ns, t)) : ApiBooks t ∧ ApiKept s t := by
  have hmove := batch_apiMove Closes.trans (expire_apiMove orderId version now) hb
  refine ⟨hmove.books hs fun a ha o o' ho hstate hcl => ⟨fun hp => absurd hp hcl.2.2, fun _ => ?_⟩, hmove.kept⟩
  have hid : a.shopOrderId = orderId := by
    rw [← hcl.1]
    exact (get?_key ho).symm
  have hpending : s.orderIs orderId (·.status == .pendingPayment) = true := by
    rw [← hid]
    exact orderIs_iff.mpr ⟨o, ho, by rw [hcl.2.1]; rfl⟩
  simp only [apiCurrent, hpending, Bool.true_and] at hc
  have hrow := exist_false_iff.mp hc a ha
  simpa [hid] using hrow

/-! ## The batches of the API -/

def RowThere (orderId apiOrderId : Id) (s : Db) : Prop :=
  ∃ a, s.supplierApiOrders.get? apiOrderId = some a ∧ a.shopOrderId = orderId

theorem RowThere.later (h : RowThere orderId apiOrderId s) (hk : ApiKept s t) : RowThere orderId apiOrderId t := by
  obtain ⟨a, ha, hao⟩ := h
  obtain ⟨a', ha', hs, -⟩ := hk.rows _ a ha
  exact ⟨a', ha', hs.trans hao⟩

def Cancels (orderId : Id) (o o' : ShopOrder) : Prop :=
  o.id = orderId ∧ o.status = .pendingPayment ∧ o'.status = .cancelled

/-- What `cancelUnpaidApiOrder` makes of a row. -/
def cancelledRow (orderId apiOrderId : Id) (s : Db) (a : SupplierApiOrder) : SupplierApiOrder :=
  if a.id == apiOrderId && a.state == .processing && s.orderIs orderId (·.status == .cancelled) then
    { a with state := .cancelled }
  else a

theorem cancelledRow_same (orderId apiOrderId : Id) (s : Db) (a : SupplierApiOrder) :
    (cancelledRow orderId apiOrderId s a).id = a.id ∧
      (cancelledRow orderId apiOrderId s a).shopOrderId = a.shopOrderId ∧
      (cancelledRow orderId apiOrderId s a).key = a.key ∧
      (cancelledRow orderId apiOrderId s a).requestDigest = a.requestDigest := by
  unfold cancelledRow
  split
  · exact ⟨rfl, rfl, rfl, rfl⟩
  · exact ⟨rfl, rfl, rfl, rfl⟩

theorem cancelledRow_state (orderId apiOrderId : Id) (s : Db) (a : SupplierApiOrder) :
    cancelledRow orderId apiOrderId s a = a ∨ (cancelledRow orderId apiOrderId s a).state = .cancelled := by
  unfold cancelledRow
  split
  · exact Or.inr rfl
  · exact Or.inl rfl

theorem RowState.of_cancelled (h : a.state = .cancelled) : RowState a o := ⟨fun _ => Or.inr h, fun _ => h⟩

theorem cancelUnpaid_steps (hb : batch (cancelUnpaidBatch orderId apiOrderId now) 0 s = .ok (ns, t)) :
    ∃ s1, ApiMove (Cancels orderId) s s1 ∧ t.orders = s1.orders ∧ t.walletEntries = s1.walletEntries ∧
      t.supplierApiOrders.rows = s.supplierApiOrders.rows.map (cancelledRow orderId apiOrderId s1) := by
  obtain ⟨n1, s1, n2, s2, n3, s3, h1, h2, h3, rfl⟩ := batch_three_ok hb
  have hmove : ApiMove (Cancels orderId) s s1 := by
    refine updateOrders_apiMove ?_ ?_ ?_ _ _ _ _ h1
    · exact fun _ _ => rfl
    · exact fun _ _ => rfl
    · intro s o ho
      rw [Bool.and_eq_true, beq_iff_eq, beq_iff_eq] at ho
      exact ⟨ho.1, ho.2, rfl⟩
  obtain ⟨-, t2, ht2, rfl⟩ := update_ok h2
  have hcore : apiCore s3 = apiCore (Db.supplierApiOrdersT.set s1 t2) :=
    Keeps.eq (update_keeps (g := apiCore) (T := Db.stockT) fun _ _ => rfl) h3
  simp only [apiCore, Prod.mk.injEq] at hcore
  refine ⟨s1, hmove, hcore.1, hcore.2.2, ?_⟩
  rw [hcore.2.1, ← hmove.rows]
  exact ht2

theorem cancelUnpaid_books (hs : ApiBooks s) (hrow : RowThere orderId apiOrderId s)
    (hb : batch (cancelUnpaidBatch orderId apiOrderId now) 0 s = .ok (ns, t)) : ApiBooks t ∧ ApiKept s t := by
  obtain ⟨s1, hmove, horders, hentries, hrows⟩ := cancelUnpaid_steps hb
  have hsame := cancelledRow_same orderId apiOrderId s1
  refine ⟨⟨fun a' ha' => ?_, fun o' ho' k hk => ?_, fun e he => ?_⟩, fun id o ho => ?_, fun id a ha => ?_⟩
  · rw [hrows] at ha'
    obtain ⟨a, ha, rfl⟩ := mem_map.mp ha'
    obtain ⟨o, ho, hkey, hstate⟩ := hs.linked a ha
    obtain ⟨o', ho', hkey', hmv⟩ := hmove.order ho
    refine ⟨o', ?_, (hkey'.trans hkey).trans (congrArg some (hsame a).2.2.1.symm), ?_⟩
    · rw [horders, (hsame a).2.1]
      exact ho'
    · rcases cancelledRow_state orderId apiOrderId s1 a with heq | hcan
      swap
      · exact .of_cancelled hcan
      rcases hmv with rfl | ⟨hid, hpending, hcancelled⟩
      · rw [heq]
        exact hstate
      · -- the row of the order is the call's own, and is hit unless it was cancelled before
        have hao : a.shopOrderId = orderId := by
          rw [← hid]
          exact (get?_key ho).symm
        obtain ⟨b, hb', hbo⟩ := hrow
        have hab : a = b := eq_of_clash ha (get?_mem hb')
          (by simp [Row.clash, hao, hbo]) (by simp [Row.clash, hao, hbo])
        have haid : a.id = apiOrderId := by
          rw [hab]
          exact get?_key hb'
        have hnow : s1.orderIs orderId (·.status == .cancelled) = true := by
          rw [← hao]
          exact orderIs_iff.mpr ⟨o', ho', by rw [hcancelled]; rfl⟩
        rcases hstate.waiting hpending with hproc | hcan
        · refine .of_cancelled ?_
          unfold cancelledRow
          rw [if_pos (by simp [haid, hproc, hnow])]
        · rw [heq]
          exact .of_cancelled hcan
  · rw [horders] at ho'
    obtain ⟨a, ha, hao, hak⟩ := hmove.rowOf hs ho' hk
    refine ⟨cancelledRow orderId apiOrderId s1 a, ?_, (hsame a).2.1.trans hao, (hsame a).2.2.1.trans hak⟩
    rw [hrows]
    exact mem_map_of_mem ha
  · rw [hentries] at he
    rw [horders]
    exact hmove.debits hs e he
  · rw [horders]
    exact hmove.kept.orders id o ho
  · refine ⟨cancelledRow orderId apiOrderId s1 a, ?_, (hsame a).2⟩
    rw [get?_map hrows fun a => (hsame a).1, ha]
    rfl

structure ApiOrderMade (q : ApiOrderRequest) (sku : ApiSku) (s t : Db) : Prop where
  orders : t.orders.rows = s.orders.rows ++ [apiOrderRow q sku]
  rows : t.supplierApiOrders.rows = s.supplierApiOrders.rows ++ [supplierApiOrderRow q]
  entries : t.walletEntries = s.walletEntries

theorem createApiBatch_ok {sku : ApiSku} {central : Bool}
    (hc : apiCurrent (.createSupplierApiOrder q.orderId q.apiOrderId) s)
    (hb : batch (createApiBatch q sku central) 0 s = .ok (ns, t)) : ApiOrderMade q sku s t := by
  unfold createApiBatch at hb
  obtain ⟨_, s3, _, hb3, hreserve, -⟩ := batch_append_ok hb
  obtain ⟨_, s2, _, hb2, hrows, -⟩ := batch_append_ok hb3
  obtain ⟨_, s1, _, horder, hguards, -⟩ := batch_append_ok hb2
  -- the order
  obtain ⟨_, r1, _, h1, hnil1, -⟩ := batch_cons_ok horder
  obtain ⟨-, rfl⟩ := batch_nil_ok hnil1
  obtain ⟨-, t1, ht1, rfl⟩ := insert_abort_ok h1
  -- the guards of its item
  obtain ⟨_, r2, _, r3, h2, h3, rfl⟩ := batch_two_ok hguards
  obtain ⟨-, -, rfl⟩ := abortWhen_ok h2
  obtain ⟨hforeign, -, rfl⟩ := abortWhen_ok h3
  have hmade : t1.rows = s.orders.rows ++ [apiOrderRow q sku] := by
    by_cases hbuyer : (s.users.exist fun u => u.id == q.userId && u.enabled) = true
    · rw [if_pos hbuyer] at ht1
      exact ht1
    · rw [if_neg hbuyer, append_nil] at ht1
      obtain rfl : t1 = s.orders := ext_rows ht1
      have hnone : (s.orders.exist fun o => o.id == q.orderId) = false := hc
      have hsome : (!(s.orders.exist fun o => o.id == q.orderId)) = false := hforeign
      rw [hnone] at hsome
      cases hsome
  -- the item, the row and the event
  obtain ⟨_, r4, _, r5, _, r6, h4, h5, h6, rfl⟩ := batch_three_ok hrows
  have hitems : apiCore r4 = apiCore (Db.ordersT.set s t1) :=
    Keeps.eq (insert_keeps (g := apiCore) (T := Db.itemsT) fun _ _ => rfl) h4
  obtain ⟨-, t5, ht5, rfl⟩ := insert_abort_ok h5
  have hevents : apiCore r6 = apiCore (Db.supplierApiOrdersT.set r4 t5) :=
    Keeps.eq (insert_keeps (g := apiCore) (T := Db.eventsT) fun _ _ => rfl) h6
  have hstock : apiCore t = apiCore r6 := by
    refine batch_keeps (fun st hst => ?_) hreserve
    split at hst
    · rw [mem_singleton.mp hst]
      exact update_off rfl
    · cases hst
  simp only [apiCore, Prod.mk.injEq] at hitems hevents hstock
  have h5rows : t5.rows = r4.supplierApiOrders.rows ++ [supplierApiOrderRow q] := ht5
  constructor
  · rw [hstock.1, hevents.1]
    show r4.orders.rows = _
    rw [hitems.1]
    exact hmade
  · rw [hstock.2.1, hevents.2.1]
    show t5.rows = _
    rw [h5rows, hitems.2.1]
    rfl
  · rw [hstock.2.2, hevents.2.2]
    exact hitems.2.2

section Made

variable {q : ApiOrderRequest} {sku : ApiSku} {s t : Db}

section

variable (h : ApiOrderMade q sku s t)
include h

theorem ApiOrderMade.kept : ApiKept s t :=
  ⟨fun _ o ho => ⟨o, get?_append h.orders ho, rfl⟩,
    fun _ a ha => ⟨a, get?_append h.rows ha, rfl, rfl, rfl⟩⟩

theorem ApiOrderMade.row : t.supplierApiOrders.get? q.apiOrderId = some (supplierApiOrderRow q) :=
  (get?_append_one h.rows q.apiOrderId).trans (if_pos rfl)

theorem ApiOrderMade.order : t.orders.get? q.orderId = some (apiOrderRow q sku) :=
  (get?_append_one h.orders q.orderId).trans (if_pos rfl)

theorem ApiOrderMade.names : NamesOrder t q (apiOrderReply (supplierApiOrderRow q) (apiOrderRow q sku)) :=
  ⟨_, _, h.row, rfl, rfl, h.order, rfl⟩

theorem ApiOrderMade.books (hs : ApiBooks s) : ApiBooks t where
  linked a ha := by
    rw [h.rows] at ha
    rcases mem_append.mp ha with hold | hnew
    · obtain ⟨o, ho, hkey, hstate⟩ := hs.linked a hold
      exact ⟨o, get?_append h.orders ho, hkey, hstate⟩
    · rw [mem_singleton.mp hnew]
      refine ⟨_, h.order, rfl, fun _ => Or.inl rfl, ?_⟩
      rintro ⟨-, hst | hst⟩
      · cases hst
      · cases hst
  rows o ho k hk := by
    rw [h.orders] at ho
    rw [h.rows]
    rcases mem_append.mp ho with hold | hnew
    · obtain ⟨a, ha, hao⟩ := hs.rows o hold k hk
      exact ⟨a, mem_append_left _ ha, hao⟩
    · rw [mem_singleton.mp hnew] at hk ⊢
      exact ⟨_, mem_append_right _ (mem_singleton_self _), rfl, Option.some.inj hk⟩
  debits e he := by
    rw [h.entries] at he
    refine (hs.debits e he).imp_right ?_
    rintro ⟨o, ho, hkey⟩
    exact ⟨o, get?_append h.orders ho, hkey⟩

end

end Made

/-! ## The calls side by side -/

inductive ApiCall where
  | create (q : ApiOrderRequest)
  | expire (now : Time) (limit : Nat)

/-- A call answers with its request where it has made or found an order. -/
def ApiCall.code : ApiCall → Call Site (Option (ApiOrderRequest × ApiOrderReply))
  | .create q => do return some (q, ← createSupplierApiOrder q)
  | .expire now limit => do
    let _ ← expireStoreOrders now limit
    return none

def apiSpec : Spec Db Site Empty :=
  .ofRel ApiBooks apiCurrent (fun _ _ => True) ApiKept (fun _ => trivial) .refl .trans

theorem api_admits (h : ApiBooks t ∧ ApiKept s t) : apiSpec.Admits ∅ ∅ s t :=
  Spec.admits_ofRel h.1 trivial fun _ => h.2

def Site.isApi : Site → Prop
  | .completeWalletStoreOrder .. | .expireStoreOrder .. => True
  | _ => False

theorem api_admitsShop : AdmitsShopAt apiSpec (fun _ => False) Site.isApi := by
  intro x sts t ns u hx h hi hc hb
  have hbooks : ApiBooks t := hi
  cases h with
  | walletOrder w user fulfillment e horder huser hfulfills =>
    have hmove := batch_apiMove (fun _ _ _ _ h => h) (walletOrder_apiMove hfulfills) hb
    exact api_admits ⟨hmove.books hbooks fun _ _ _ _ _ _ hpaid => paid_rowState hpaid, hmove.kept⟩
  | expire orderId version now => exact api_admits (expire_books hbooks hc hb)
  | _ => exact hx.elim

section Calls

variable {s : Db}

theorem findApiOrder_names (hs : ApiBooks s) (hfound : findApiOrder s q.key = some (a, o))
    (hdigest : a.requestDigest = q.input) : NamesOrder s q (apiOrderReply a o) := by
  simp only [findApiOrder, Option.bind_eq_bind, Option.bind_eq_some_iff, Option.pure_def,
    Option.some.injEq, Prod.mk.injEq] at hfound
  obtain ⟨b, hb, x, hx, rfl, rfl⟩ := hfound
  have hmem : b ∈ s.supplierApiOrders.rows := mem_of_find?_eq_some hb
  have hkey : b.key = q.key := by simpa using find?_some hb
  obtain ⟨y, hy, hykey, -⟩ := hs.linked b hmem
  exact ⟨b, y, mem_get? hmem, hkey, hdigest, hy, by rw [hykey, hkey]⟩

theorem replayApiOrder_answers {found : SupplierApiOrder × ShopOrder} (hs : ApiBooks s)
    (hfound : findApiOrder s q.key = some found) :
    Answers apiSpec (fun r t => NamesOrder t q r) (replayApiOrder q found) s := by
  unfold replayApiOrder
  split
  · exact .throw _
  next hdigest =>
  split
  · exact .throw _
  · exact .done (findApiOrder_names hs hfound (not_not.mp hdigest))

theorem payApiOrder_bare (hrow : RowThere q.orderId q.apiOrderId s) : Bare apiSpec (payApiOrder q) s := by
  refine Bare.tryCatch ?_ fun err t ht => ?_
  · exact (completeWalletStoreOrder_bare api_admitsShop (fun _ => trivial) q.userId q.currency q.payment).void
  · refine Bare.bind (Bare.bind (Bare.commit fun u hu hi _ ns v hb => ?_) fun _ _ _ => .done _) fun _ _ _ => .fail _
    have hkept : ApiKept s u := ApiKept.trans _ _ _ ht hu
    exact api_admits (cancelUnpaid_books hi (hrow.later hkept) hb)

theorem apiOrderError_answers (q : ApiOrderRequest) (err : Failure DomainError) :
    Answers apiSpec (fun r t => NamesOrder t q r) (apiOrderError q err) s := by
  unfold apiOrderError
  split
  · exact .throw _
  · exact .throw _
  · refine Answers.query fun t _ hi => ?_
    cases hfound : findApiOrder t q.key with
    | none => exact .fail _
    | some found =>
      obtain ⟨a, o⟩ := found
      dsimp only
      split
      · next hdigest => exact .done (findApiOrder_names hi hfound hdigest)
      · exact .fail _

theorem placeApiOrder_answers (q : ApiOrderRequest) (sku : ApiSku) (central : Bool) :
    Answers apiSpec (fun r t => NamesOrder t q r) (placeApiOrder q sku central) s := by
  refine Answers.tryCatch ?_ fun err t _ => apiOrderError_answers q err
  refine Answers.commit fun t _ hi hc ns u hb => ?_
  have hmade := createApiBatch_ok hc hb
  refine ⟨api_admits ⟨hmade.books hi, hmade.kept⟩, ?_⟩
  refine Answers.bind (payApiOrder_bare ⟨_, hmade.row, rfl⟩).answers fun _ v hv _ => ?_
  exact .done (hmade.names.later hv)

theorem createSupplierApiOrder_answers (q : ApiOrderRequest) :
    Answers apiSpec (fun r t => NamesOrder t q r) (createSupplierApiOrder q) s := by
  unfold createSupplierApiOrder
  split
  · exact .throw _
  cases q.callback with
  | error e => exact .throw _
  | ok a =>
    refine Answers.query fun t _ hi => ?_
    cases hfound : findApiOrder t q.key with
    | some found => exact replayApiOrder_answers hi hfound
    | none =>
      cases q.sku with
      | none => exact .throw _
      | some sku =>
        refine Answers.bind (prepareSale_bare _ _ _).answers fun central u _ _ => ?_
        split
        · exact .throw _
        refine Answers.bind (liftExcept_bare _).answers fun _ v _ _ => Answers.query fun w _ _ => ?_
        split
        · exact .throw _
        · exact placeApiOrder_answers q sku central

end Calls

def AnswerNames (x : Option (ApiOrderRequest × ApiOrderReply)) (s : Db) : Prop :=
  ∀ q r, x = some (q, r) → NamesOrder s q r

theorem ApiCall.answers (c : ApiCall) (s : Db) : Answers apiSpec AnswerNames c.code s := by
  cases c with
  | create q =>
    refine Answers.bind (createSupplierApiOrder_answers q) fun r t _ hr => .done fun q' r' h => ?_
    cases h
    exact hr
  | expire now limit =>
    refine Answers.bind (expireStoreOrders_bare api_admitsShop (fun _ _ => trivial) now limit).answers
      fun _ _ _ _ => .done fun _ _ h => nomatch h

/-! ## Numbers are idempotent -/

/-- A number has at most one order, and its order at most one debit. -/
structure OneOrderEach (s : Db) : Prop where
  order : ∀ o ∈ s.orders.rows, ∀ o' ∈ s.orders.rows, ∀ k, o.idempotencyKey = some k →
    o'.idempotencyKey = some k → o = o'
  debit : ∀ o ∈ s.orders.rows, ∀ k, o.idempotencyKey = some k → ∀ e ∈ s.walletEntries.rows,
    ∀ e' ∈ s.walletEntries.rows, e.pays o.id → e'.pays o.id → e = e'

theorem ApiBooks.debit_key (h : ApiBooks s) (ho : o ∈ s.orders.rows) (hk : o.idempotencyKey = some k)
    {e : WalletEntry} (he : e ∈ s.walletEntries.rows) (hp : e.pays o.id) : e.idempotencyKey = .shopOrder o.id := by
  obtain ⟨hdir, hsrc, hid⟩ := hp
  rcases h.debits e he with hkeyed | ⟨x, hx, hnone⟩
  · rw [hkeyed hdir hsrc, hid]
  · -- the source would be an order that is none of the API's
    rw [hid] at hx
    have hxo : x = o := eq_of_key (get?_mem hx) ho (get?_key hx)
    rw [hxo, hk] at hnone
    cases hnone

theorem ApiBooks.oneOrderEach (h : ApiBooks s) : OneOrderEach s where
  order o ho o' ho' k hk hk' :=
    eq_of_clash ho ho' (by simp [Row.clash, hk, hk']) (by simp [Row.clash, hk, hk'])
  debit o ho k hk e he e' he' hp hp' := by
    have hkey := h.debit_key ho hk he hp
    have hkey' := h.debit_key ho hk he' hp'
    exact eq_of_clash he he' (by simp [Row.clash, hkey, hkey']) (by simp [Row.clash, hkey, hkey'])

theorem NamesOrder.unique {q' : ApiOrderRequest} {r' : ApiOrderReply} (h : NamesOrder s q r)
    (h' : NamesOrder s q' r') (hkey : q.key = q'.key) : r.orderId = r'.orderId ∧ q.input = q'.input := by
  obtain ⟨a, -, ha, hak, hdig, -⟩ := h
  obtain ⟨b, -, hb, hbk, hdig', -⟩ := h'
  have heq : a.key = b.key := by rw [hak, hbk, hkey]
  simp only [SupplierApiOrder.key, ApiOrderKey.mk.injEq] at heq
  have hab : a = b := eq_of_clash (get?_mem ha) (get?_mem hb)
    (by simp [Row.clash, heq.1, heq.2]) (by simp [Row.clash, heq.1, heq.2])
  constructor
  · rw [← get?_key ha, ← get?_key hb, hab]
  · rw [← hdig, ← hdig', hab]

theorem alone_found {found? : Option (SupplierApiOrder × ShopOrder)} {found : SupplierApiOrder × ShopOrder}
    (h : found? = some found) (q : ApiOrderRequest) (k : Call Site ApiOrderReply) (s : Db) :
    (match found? with
      | some found => replayApiOrder q found
      | none => k).alone s = (replayApiOrder q found).alone s := by
  rw [h]

theorem ApiBooks.refuses (h : ApiBooks s) (ho : o ∈ s.orders.rows) (hk : o.idempotencyKey = some q.key)
    (hclosed : o.closedUnpaid) (r : ApiOrderReply) : ((createSupplierApiOrder q).alone s).1 ≠ .ok r := by
  obtain ⟨a, ha, hao, hakey⟩ := h.rows o ho _ hk
  obtain ⟨o', ho', -, hstate⟩ := h.linked a ha
  have hoo : o' = o := eq_of_key (get?_mem ho') ho ((get?_key ho').trans hao)
  subst hoo
  have hfound : findApiOrder s q.key = some (a, o') := by
    have hfind : s.supplierApiOrders.rows.find? (fun a => a.key == q.key) = some a := by
      have hex : (s.supplierApiOrders.rows.find? fun a => a.key == q.key).isSome = true :=
        find?_isSome.mpr ⟨a, ha, by simp [hakey]⟩
      obtain ⟨b, hb⟩ := Option.isSome_iff_exists.mp hex
      have hbkey : b.key = a.key := by
        rw [hakey]
        simpa using find?_some hb
      simp only [SupplierApiOrder.key, ApiOrderKey.mk.injEq] at hbkey
      have hba : b = a := eq_of_clash (mem_of_find?_eq_some hb) ha
        (by simp [Row.clash, hbkey.1, hbkey.2]) (by simp [Row.clash, hbkey.1, hbkey.2])
      rw [hb, hba]
    simp only [findApiOrder, hfind, Option.bind_eq_bind, Option.bind_some, ho', Option.pure_def]
  have hcancelled : a.state = .cancelled := hstate.closed hclosed
  unfold createSupplierApiOrder
  split
  · exact fun hn => by cases hn
  cases q.callback with
  | error e => exact fun hn => by cases hn
  | ok x =>
    refine (congrArg Prod.fst (alone_found hfound q _ s)).trans_ne ?_
    dsimp only [replayApiOrder]
    split
    · exact fun hn => by cases hn
    rw [if_pos ⟨hcancelled, hclosed.1⟩]
    exact fun hn => by cases hn

/-- In every run whose expiries leave the API's unpaid orders alone, a number has at most one order and
one debit, every answer names the order of its number with the content of its request, and no call
answers under the number of an order that was closed unpaid. -/
theorem api_numbers_idempotent {s : Db} (h0 : ApiBooks s)
    {w : World Db Site DomainError (Option (ApiOrderRequest × ApiOrderReply))}
    (hrun : Runs ApiCall.code apiCurrent ⟨s, []⟩ w) :
    OneOrderEach w.db ∧ (∀ q r, .done (some (q, r)) ∈ w.calls → NamesOrder w.db q r) ∧
      (∀ q r q' r', .done (some (q, r)) ∈ w.calls → .done (some (q', r')) ∈ w.calls →
        q.key = q'.key → r.orderId = r'.orderId ∧ q.input = q'.input) ∧
      ∀ o ∈ w.db.orders.rows, ∀ q : ApiOrderRequest, o.idempotencyKey = some q.key → o.closedUnpaid →
        ∀ r, ((createSupplierApiOrder q).alone w.db).1 ≠ .ok r := by
  have hstable : ∀ x s t, apiSpec.rely ∅ s t → AnswerNames x s → AnswerNames x t :=
    fun x s t hr h q r hx => (h q r hx).later hr
  obtain ⟨hbooks, hanswers⟩ := Runs.answers (S := apiSpec) hstable (fun c s _ => ApiCall.answers c s) h0 hrun
  have hnames : ∀ q r, .done (some (q, r)) ∈ w.calls → NamesOrder w.db q r :=
    fun q r h => hanswers _ h q r rfl
  refine ⟨ApiBooks.oneOrderEach hbooks, hnames, fun q r q' r' h h' => ?_, fun o ho q hk hclosed => ?_⟩
  · exact (hnames q r h).unique (hnames q' r' h')
  · exact ApiBooks.refuses hbooks ho hk hclosed

/-! ## Two runs -/

def resellerDb : Db :=
  { users := .of [{ id := 1, balanceMinor := 500 }]
    sellableItems := .of [{ id := 5 }]
    stock := .of [{ id := 11, sellableItemId := 5, status := .available }] }

theorem reseller_books : ApiBooks resellerDb where
  linked a ha := by cases ha
  rows o ho := by cases ho
  debits e he := by cases he

def order7 : ApiOrderRequest where
  userId := 1
  email := 1
  input := { skuId := 5, quantity := 1, downstreamOrderNo := 7 }
  callback := .ok ()
  sku := some { priceMinor := 100, currency := 0, currencyDecimals := 2, stockQuantity := 1
                ownedStockQuantity := 1 }
  saleComponents := []
  supplierAvailability := .ok ()
  orderId := 3
  orderNumber := 3
  orderItemId := 3
  apiOrderId := 3
  currency := 0
  now := 10
  payment := ⟨10, fun _ => ⟨3, 3, 3, 3⟩⟩

def reply7 : ApiOrderReply := ⟨3, 100, 0, 2⟩

def orderedTwiceRun : World Db Site DomainError (Option (ApiOrderRequest × ApiOrderReply)) :=
  World.exec ApiCall.code apiCurrent ⟨resellerDb, []⟩ (oneByOne [.create order7, .create order7] 8)

theorem api_numbers_idempotent_orderedTwice :
    OneOrderEach orderedTwiceRun.db ∧ NamesOrder orderedTwiceRun.db order7 reply7 ∧
      ∀ o ∈ orderedTwiceRun.db.orders.rows, o.idempotencyKey = some order7.key → o.closedUnpaid →
        ∀ r, ((createSupplierApiOrder order7).alone orderedTwiceRun.db).1 ≠ .ok r := by
  have hrun : Runs ApiCall.code apiCurrent ⟨resellerDb, []⟩ orderedTwiceRun :=
    World.exec_runs ApiCall.code apiCurrent _ _
  obtain ⟨hone, hnames, -, hrefuses⟩ := api_numbers_idempotent reseller_books hrun
  have hanswer : orderedTwiceRun.calls[1]? = some (.done (some (order7, reply7))) := by rfl
  exact ⟨hone, hnames order7 reply7 (mem_of_getElem? hanswer),
    fun o ho hk hclosed => hrefuses o ho order7 hk hclosed⟩

/-- The worker of the first call dies before the payment; the second call is answered from the row; then
the order expires. -/
def expiredAnsweredRun : World Db Site DomainError (Option (ApiOrderRequest × ApiOrderReply)) :=
  World.exec ApiCall.code anySite ⟨resellerDb, []⟩ (Move.start (.create order7) :: List.replicate 3 (Move.run 0) ++
      Move.kill 0 :: Move.start (.create order7) :: Move.run 1 :: Move.start (.expire 9000000 50) :: List.replicate 2 (Move.run 2))

/-- A third call is still answered. -/
theorem not_api_numbers_idempotent :
    ¬∀ s, ApiBooks s → ∀ w : World Db Site DomainError (Option (ApiOrderRequest × ApiOrderReply)),
      Runs ApiCall.code anySite ⟨s, []⟩ w → w.Quiescent →
        ∀ o ∈ w.db.orders.rows, ∀ q r, .done (some (q, r)) ∈ w.calls → o.idempotencyKey = some q.key →
          o.closedUnpaid → ∀ r', ((createSupplierApiOrder q).alone w.db).1 ≠ .ok r' := by
  intro h
  have hanswer : expiredAnsweredRun.calls[1]? = some (.done (some (order7, reply7))) := by rfl
  have horder : expiredAnsweredRun.db.orders.rows = [{ apiOrderRow order7 ⟨100, 0, 2, 0, 1, 1⟩ with
          status := .expired, version := 2, updatedAt := 9000000 }] := by decide
  refine h resellerDb reseller_books expiredAnsweredRun (World.exec_runs ApiCall.code anySite _ _)
    (by decide) _ (horder ▸ mem_singleton_self _) order7 reply7
    (mem_of_getElem? hanswer) rfl ⟨rfl, Or.inr rfl⟩ reply7 ?_
  rfl

/-! ## Cancellations -/

def takenUpDb : Db where
  orders := .ok [{ id := 1, status := .paid, version := 2, totalMinor := 9 }]
  deliveries := .ok [{ id := 1, orderItemId := 1, deliveryType := .stock, status := .processing }]

end Gmshop
