import GmshopEdge.Access.Checkout
import GmshopEdge.Orders.PurchaseLimit
import GmshopEdge.Fulfillment.Access
import GmshopEdge.Lib.Checked

/-!
# One order for a quote, one for an account's access

An upgrade or access row holds its key until its order is closed and unpaid; a later checkout then
cancels the row (`closedUnpaid`). The key is unique among the rows that hold one, so at most one of
them is open. A payment that comes after the order expired does not ask for the row: it makes the
order payable again while the row stays cancelled, unless it commits before the release
(`accessHeld`).
-/

namespace Gmshop

open List Sql Stmt Prog Table Prod

/-! ## The property -/

/-- The states of an upgrade that was not given up: `pending` or `delivered`. -/
def UpgradeState.live (st : UpgradeState) : Bool := st == .pending || st == .delivered

/-- The states of an access that was not given up: `pending` or `active`. -/
def AgentAccessState.live (st : AgentAccessState) : Bool := st == .pending || st == .active

def accessReleased (s : Db) (orderId : Id) : Bool :=
  (s.upgradeOrders.exist fun u => u.state == .cancelled && s.itemOf orderId u.orderItemId) ||
    s.agentOrders.exist fun a => a.state == .cancelled && s.itemOf orderId a.orderItemId

structure AccessFulfillable (s : Db) : Prop where
  held : ∀ o ∈ s.orders.rows, o.status.deliverable = true → accessReleased s o.id = false
  quote : ∀ u ∈ s.upgradeOrders.rows, ∀ v ∈ s.upgradeOrders.rows,
    u.state.live = true → v.state.live = true → u.quoteId = v.quoteId → u = v
  access : ∀ a ∈ s.agentOrders.rows, ∀ b ∈ s.agentOrders.rows,
    a.state.live = true → b.state.live = true → a.userId = b.userId → a.kind = b.kind → a = b

/-- The condition: the payment of an expired order commits only while its row holds the key. -/
def accessHeld (x : Site) (s : Db) : Prop :=
  match x with
  | .orderPayment _ orderId status version => ∀ o ∈ s.orders.get? orderId,
      orderCas orderId status version o = true → o.status = .expired → accessReleased s orderId = false
  | _ => True

instance (x : Site) (s : Db) : Decidable (accessHeld x s) := by
  casesm Site <;> dsimp only [accessHeld] <;> infer_instance

/-! ## The invariant -/

def ItemClosed (s : Db) (itemId : Id) : Prop :=
  ∃ i o, s.items.get? itemId = some i ∧ s.orders.get? i.orderId = some o ∧ o.status.countsAsPurchase = false

/-- A row holds its key, or it was cancelled with its order closed. -/
structure AccessInv (s : Db) : Prop where
  upgrades : ∀ u ∈ s.upgradeOrders.rows, u.state ≠ .cancelled ∧ u.activeKey = some u.quoteId ∨
    u.state = .cancelled ∧ ItemClosed s u.orderItemId
  agents : ∀ a ∈ s.agentOrders.rows, a.state ≠ .cancelled ∧ a.activeKey = some (a.userId, a.kind) ∨
    a.state = .revoked ∨ a.state = .cancelled ∧ ItemClosed s a.orderItemId

theorem deliverable_counts {st : ShopOrderStatus} (h : st.deliverable = true) : st.countsAsPurchase = true := by
  cases st <;> first | rfl | cases h

variable {itemId orderId : Id} {o : ShopOrder} {s t u : Db} {st : Stmt Db} {money ordering : Prop} {c : Nat}
  {now : Time} {p : Db → AgentAccessOrder → Bool} {f : Db → AgentAccessOrder → AgentAccessOrder}

theorem ItemClosed.order (h : ItemClosed s itemId) (hof : s.itemOf orderId itemId = true)
    (ho : s.orders.get? orderId = some o) : o.status.countsAsPurchase = false := by
  obtain ⟨i, hi, rfl⟩ := itemOf_iff.mp hof
  obtain ⟨i', o', hi', ho', hc⟩ := h
  rw [hi, Option.some.injEq] at hi'
  subst hi'
  rw [ho, Option.some.injEq] at ho'
  exact ho' ▸ hc

theorem AccessInv.released (h : AccessInv s) (ho : s.orders.get? orderId = some o)
    (hr : accessReleased s orderId = true) : o.status.countsAsPurchase = false := by
  unfold accessReleased at hr
  rw [Bool.or_eq_true, exist_iff, exist_iff] at hr
  rcases hr with ⟨u, hu, hp⟩ | ⟨a, ha, hp⟩
  · rw [Bool.and_eq_true, beq_iff_eq] at hp
    rcases h.upgrades u hu with ⟨hne, -⟩ | ⟨-, hclosed⟩
    · exact absurd hp.1 hne
    · exact hclosed.order hp.2 ho
  · rw [Bool.and_eq_true, beq_iff_eq] at hp
    rcases h.agents a ha with ⟨hne, -⟩ | hrev | ⟨-, hclosed⟩
    · exact absurd hp.1 hne
    · rw [hrev] at hp
      cases hp.1
    · exact hclosed.order hp.2 ho

theorem AccessInv.fulfillable (h : AccessInv s) : AccessFulfillable s where
  held o ho hd := by
    cases hr : accessReleased s o.id with
    | false => rfl
    | true =>
      have hclosed := h.released (mem_get? ho) hr
      rw [deliverable_counts hd] at hclosed
      cases hclosed
  quote u hu v hv hlu hlv hq := by
    have hkey : ∀ x ∈ s.upgradeOrders.rows, x.state.live = true → x.activeKey = some x.quoteId := by
      intro x hx hl
      rcases h.upgrades x hx with ⟨-, hk⟩ | ⟨hc, -⟩
      · exact hk
      · rw [hc] at hl
        cases hl
    have hclash : ∀ x y : GptUpgradeOrder, x.activeKey = some u.quoteId →
        y.activeKey = some u.quoteId → Row.clash x y = true := by
      intro x y hx hy
      show (x.orderItemId == y.orderItemId || (x.activeKey == y.activeKey && x.activeKey.isSome)) = true
      rw [hx, hy]
      simp
    have hku := hkey u hu hlu
    have hkv := hq ▸ hkey v hv hlv
    exact eq_of_clash hu hv (hclash u v hku hkv) (hclash v u hkv hku)
  access a ha b hb hla hlb hu hk := by
    have hkey : ∀ x ∈ s.agentOrders.rows, x.state.live = true → x.activeKey = some (x.userId, x.kind) := by
      intro x hx hl
      rcases h.agents x hx with ⟨-, hk⟩ | hr | ⟨hc, -⟩
      · exact hk
      · rw [hr] at hl
        cases hl
      · rw [hc] at hl
        cases hl
    have hclash : ∀ x y : AgentAccessOrder, x.activeKey = some (a.userId, a.kind) →
        y.activeKey = some (a.userId, a.kind) → Row.clash x y = true := by
      intro x y hx hy
      show (x.orderItemId == y.orderItemId || (x.activeKey == y.activeKey && x.activeKey.isSome)) = true
      rw [hx, hy]
      simp
    have hka := hkey a ha hla
    have hkb : b.activeKey = some (a.userId, a.kind) := by rw [hkey b hb hlb, hu, hk]
    exact eq_of_clash ha hb (hclash a b hka hkb) (hclash b a hkb hka)

/-! ## What the statements do -/

def AccessKept (s t : Db) : Prop := AccessInv s → AccessInv t

structure AccessFrame (s t : Db) : Prop where
  upgrades : t.upgradeOrders = s.upgradeOrders
  agents : t.agentOrders = s.agentOrders
  closed : ∀ itemId, ItemClosed s itemId → ItemClosed t itemId

theorem AccessFrame.kept (h : AccessFrame s t) : AccessKept s t := by
  intro hi
  refine ⟨fun u hu => ?_, fun a ha => ?_⟩
  · rw [h.upgrades] at hu
    exact (hi.upgrades u hu).imp_right (And.imp_right (h.closed _))
  · rw [h.agents] at ha
    exact (hi.agents a ha).imp_right (Or.imp_right (And.imp_right (h.closed _)))

def accessCore (s : Db) := (s.upgradeOrders, s.agentOrders, s.items, s.orders)

theorem AccessFrame.of_core (h : accessCore t = accessCore s) : AccessFrame s t := by
  simp only [accessCore, mk.injEq] at h
  obtain ⟨hu, ha, hitems, horders⟩ := h
  refine ⟨hu, ha, fun itemId hc => ?_⟩
  unfold ItemClosed
  rw [hitems, horders]
  exact hc

theorem keeps_accessFrame (h : Keeps accessCore st) : Within AccessFrame st :=
  fun c s n s' hs => .of_core (h c s n s' hs)

/-- What the triggers of orders and attempts leave alone. -/
def accessRest (s : Db) := (s.upgradeOrders, s.agentOrders, s.items)

theorem accessRest_off : OffPromotion accessRest := by constructor <;> exact fun _ _ => rfl

theorem AccessFrame.of_orders {g : ShopOrder → ShopOrder}
    (hrest : (t.upgradeOrders, t.agentOrders, t.items) = (s.upgradeOrders, s.agentOrders, s.items))
    (horders : t.orders.rows = s.orders.rows.map g) (hid : ∀ o, (g o).id = o.id)
    (hg : ∀ o, (g o).status.countsAsPurchase = true → o.status.countsAsPurchase = true) :
    AccessFrame s t := by
  simp only [mk.injEq] at hrest
  obtain ⟨hu, ha, hitems⟩ := hrest
  refine ⟨hu, ha, ?_⟩
  rintro itemId ⟨i, o, hi, ho, hc⟩
  refine ⟨i, g o, by rw [hitems]; exact hi, ?_, ?_⟩
  · rw [get?_map horders hid, ho]
    rfl
  · cases hcount : (g o).status.countsAsPurchase with
    | false => rfl
    | true =>
      rw [hg o hcount] at hc
      cases hc

theorem updateOrders_accessFrame {p : Db → ShopOrder → Bool} {f : Db → ShopOrder → ShopOrder}
    (hid : ∀ s o, (f s o).id = o.id)
    (hs : ∀ s o, p s o = true → (f s o).status.countsAsPurchase = true →
      o.status.countsAsPurchase = true) : Within AccessFrame (updateOrders p f) := by
  intro c s n s' h
  refine .of_orders ?_ (updateOrders_rows hid h).2 (fun o => ?_) fun o hc => ?_
  · exact Keeps.eq (updateOrders_keeps accessRest_off fun _ _ => rfl) h
  · split
    · exact hid s o
    · rfl
  · split at hc
    · next hp => exact hs s o hp hc
    · exact hc

theorem updateAttempts_accessFrame {p : Db → PaymentAttempt → Bool}
    {f : Db → PaymentAttempt → PaymentAttempt} : Within AccessFrame (updateAttempts p f) := by
  intro c s n s' h
  obtain ⟨g, hg, hm⟩ := updateAttempts_ordersShrink c s n s' h
  refine .of_orders ?_ hg (fun o => (hm o).1.id) fun o => (hm o).2
  exact Keeps.eq (updateAttempts_keeps accessRest_off (fun _ _ => rfl) fun _ _ => rfl) h

theorem AccessFrame.of_append {os : List ShopOrder} {is : List ShopOrderItem}
    (hrest : (t.upgradeOrders, t.agentOrders) = (s.upgradeOrders, s.agentOrders))
    (horders : t.orders.rows = s.orders.rows ++ os) (hitems : t.items.rows = s.items.rows ++ is) :
    AccessFrame s t := by
  simp only [mk.injEq] at hrest
  refine ⟨hrest.1, hrest.2, ?_⟩
  rintro itemId ⟨i, o, hi, ho, hc⟩
  exact ⟨i, o, get?_append hitems hi, get?_append horders ho, hc⟩

theorem newOrder_accessFrame {g : Db → List ShopOrder} : Within AccessFrame (insert Db.ordersT .abort g) := by
  intro c s n s' h
  obtain ⟨-, t, ht, rfl⟩ := insert_ok h
  exact AccessFrame.of_append rfl ht (show s.items.rows = s.items.rows ++ [] from (append_nil _).symm)

theorem newItems_accessFrame {g : Db → List ShopOrderItem} : Within AccessFrame (insert Db.itemsT .abort g) := by
  intro c s n s' h
  obtain ⟨-, t, ht, rfl⟩ := insert_ok h
  exact AccessFrame.of_append rfl (show s.orders.rows = s.orders.rows ++ [] from (append_nil _).symm) ht

theorem QuietStmt.accessFrame {paying : Prop} (h : QuietStmt paying ordering money st) : Within AccessFrame st := by
  cases h with
  | plain st h =>
    exact keeps_accessFrame (h.keeps (by constructor; constructor; all_goals exact fun _ _ => rfl))
  | attempts st h =>
    exact h.within (fun _ => keeps_accessFrame) (fun _ _ => updateAttempts_accessFrame) fun _ _ => rfl
  | orderRow h p f hf hs =>
    intro c s n s' h
    obtain ⟨-, t, ht, rfl⟩ := update_ok h
    refine .of_orders (s := s) rfl ht (fun o => ?_) fun o hc => ?_
    · split
      · exact (hf s o).id
      · rfl
    · split at hc
      · rw [(hs s o).1] at hc
        exact hc
      · exact hc
  | newOrder h g hg => exact newOrder_accessFrame
  | newOrderOn h g hg => exact onChanges_within fun _ => newOrder_accessFrame
  | items h g => exact newItems_accessFrame
  | events c g hg => exact keeps_accessFrame (insert_off rfl)
  | paymentEvent h g => exact keeps_accessFrame (insertRequired_off rfl)
  | coupons p f => exact keeps_accessFrame (update_off rfl)
  | redemptions p f => exact keeps_accessFrame (update_off rfl)
  | newRedemption h g => exact keeps_accessFrame (insert_off rfl)

theorem ShopStmt.accessFrame (h : ShopStmt False ordering money st) : Within AccessFrame st := by
  cases h with
  | quiet st h => exact h.accessFrame
  | orders p f hf hv hs =>
    exact updateOrders_accessFrame (fun s o => (hf s o).id) fun s o hp hc =>
      ((hs s o hp).2 hc).resolve_right id

theorem batch_accessKept {sts : List (Stmt Db)} (h : ∀ st ∈ sts, Within AccessKept st) {ns : List Nat}
    (hb : batch sts c s = .ok (ns, t)) : AccessKept s t :=
  batch_within (fun _ => id) (fun _ _ _ h h' hi => h' (h hi)) h hb

theorem frame_accessKept (h : Within AccessFrame st) : Within AccessKept st :=
  fun c s n s' hs => (h c s n s' hs).kept

/-! ### Payments -/

theorem paySwap_accessKept {order : ShopOrder} {n : Nat}
    (h : updateOrders (fun _ o => orderCas order.id order.status order.version o)
      (fun _ o => paidOrder (order.version + 1) now o) c s = .ok (n, t))
    (hstatus : order.status = .pendingPayment ∨ order.status = .expired)
    (hheld : ∀ o ∈ s.orders.get? order.id, orderCas order.id order.status order.version o = true →
      o.status = .expired → accessReleased s order.id = false) : AccessKept s t := by
  intro hi
  have hrows := (updateOrders_rows (f := fun _ o => paidOrder (order.version + 1) now o) (fun _ _ => rfl) h).2
  have hrest : (t.upgradeOrders, t.agentOrders, t.items) = (s.upgradeOrders, s.agentOrders, s.items) :=
    Keeps.eq (updateOrders_keeps accessRest_off fun _ _ => rfl) h
  simp only [mk.injEq] at hrest
  obtain ⟨hu, ha, hitems⟩ := hrest
  have hclosed : ∀ itemId, ItemClosed s itemId →
      (s.itemOf order.id itemId = true → accessReleased s order.id = true) → ItemClosed t itemId := by
    rintro itemId ⟨i, o, hitem, ho, hc⟩ hrel
    refine ⟨i, _, by rw [hitems]; exact hitem, ?_, hc⟩
    rw [get?_map hrows fun o => by split <;> rfl, ho, Option.map_some, if_neg]
    intro hcas
    -- the order it reopens had expired
    have hid : i.orderId = order.id := (get?_key ho).symm.trans (orderCas_id hcas)
    have hexp : o.status = .expired := by
      rcases hstatus with hp | he
      · rw [orderCas_status hcas, hp] at hc
        cases hc
      · exact (orderCas_status hcas).trans he
    have hr := hrel (itemOf_iff.mpr ⟨i, hitem, hid⟩)
    rw [hheld o (hid ▸ ho) hcas hexp] at hr
    cases hr
  constructor
  · intro u hmem
    rw [hu] at hmem
    refine (hi.upgrades u hmem).imp_right fun hc => ⟨hc.1, hclosed _ hc.2 fun hof => ?_⟩
    unfold accessReleased
    rw [Bool.or_eq_true, exist_iff]
    exact Or.inl ⟨u, hmem, by rw [Bool.and_eq_true, beq_iff_eq]; exact ⟨hc.1, hof⟩⟩
  · intro a hmem
    rw [ha] at hmem
    refine (hi.agents a hmem).imp_right (Or.imp_right fun hc => ⟨hc.1, hclosed _ hc.2 fun hof => ?_⟩)
    unfold accessReleased
    rw [Bool.or_eq_true, exist_iff, exist_iff]
    exact Or.inr ⟨a, hmem, by rw [Bool.and_eq_true, beq_iff_eq]; exact ⟨hc.1, hof⟩⟩

theorem OrderPaymentSteps.accessKept {channelId attemptId : Id} {event : PaymentEvent} {order : ShopOrder}
    {coupon : Option Id} {fulfillment : List (Stmt Db)} {t1 t2 t3 t4 : Db}
    (h : OrderPaymentSteps channelId attemptId event order coupon fulfillment now t t1 t2 t3 t4 u)
    (hrest : ∀ st ∈ afterPaymentEvent order.id (order.version + 1) coupon fulfillment,
      Within AccessFrame st) (hstatus : order.status = .pendingPayment ∨ order.status = .expired)
    (hheld : accessHeld (.orderPayment attemptId order.id order.status order.version) t) :
    AccessKept t u := by
  intro hi
  have hcore : accessCore t2 = accessCore t := h.before (fun _ _ => rfl) fun _ _ => rfl
  have hi2 : AccessInv t2 := (AccessFrame.of_core hcore).kept hi
  simp only [accessCore, mk.injEq] at hcore
  obtain ⟨hu2, ha2, hitems2, horders2⟩ := hcore
  have hrel : accessReleased t2 order.id = accessReleased t order.id := by
    unfold accessReleased Db.itemOf
    rw [hu2, ha2, hitems2]
  obtain ⟨c3, n3, h3⟩ := h.swap
  have hi3 : AccessInv t3 := by
    refine paySwap_accessKept h3 hstatus ?_ hi2
    rw [horders2, hrel]
    exact hheld
  obtain ⟨c, ns, hb⟩ := h.rest
  obtain ⟨-, te, -, -, -, ht4⟩ := h.event
  have hi4 : AccessInv t4 := by
    rw [ht4]
    exact (AccessFrame.of_core (s := t3) (t := Db.eventsT.set t3 te) rfl).kept hi3
  exact batch_accessKept (fun st hst => frame_accessKept (hrest st hst)) hb hi4

/-! ### The rows themselves -/

theorem updateUpgrades_accessKept {p : Db → GptUpgradeOrder → Bool} {f : Db → GptUpgradeOrder → GptUpgradeOrder}
    (hf : ∀ s u, p s u = true → (f s u).orderItemId = u.orderItemId ∧
      (f s u).activeKey = u.activeKey ∧ (f s u).quoteId = u.quoteId ∧
      ((f s u).state = .cancelled ↔ u.state = .cancelled)) :
    Within AccessKept (update Db.upgradeOrdersT p f) := by
  intro c s n s' h hi
  obtain ⟨-, t, ht, rfl⟩ := update_ok h
  refine ⟨fun u hu => ?_, hi.agents⟩
  have hu' : u ∈ t.rows := hu
  rw [ht] at hu'
  obtain ⟨v, hv, rfl⟩ := mem_map.mp hu'
  have hold := hi.upgrades v hv
  split
  · next hp =>
    obtain ⟨hitem, hkey, hquote, hstate⟩ := hf s v hp
    rw [ne_eq, hstate, hkey, hquote, hitem]
    exact hold
  · exact hold

theorem updateAgents_accessKept
    (hf : ∀ s a, p s a = true → (f s a).state = .revoked ∨ (f s a).orderItemId = a.orderItemId ∧
      (f s a).activeKey = a.activeKey ∧ (f s a).userId = a.userId ∧ (f s a).kind = a.kind ∧
      ((f s a).state = a.state ∨ a.state = .pending ∧ (f s a).state = .active)) :
    Within AccessKept (update Db.agentOrdersT p f) := by
  intro c s n s' h hi
  obtain ⟨-, t, ht, rfl⟩ := update_ok h
  refine ⟨hi.upgrades, fun a ha => ?_⟩
  have ha' : a ∈ t.rows := ha
  rw [ht] at ha'
  obtain ⟨b, hb, rfl⟩ := mem_map.mp ha'
  have hold := hi.agents b hb
  split
  · next hp =>
    rcases hf s b hp with hr | ⟨hitem, hkey, huser, hkind, hstate⟩
    · exact Or.inr (Or.inl hr)
    · rcases hstate with hsame | ⟨hpend, hact⟩
      · rw [hsame, hkey, huser, hkind, hitem]
        exact hold
      · rw [hact, hkey, huser, hkind]
        rcases hold with ⟨-, hk⟩ | hrev | ⟨hc, -⟩
        · exact Or.inl ⟨by decide, hk⟩
        · rw [hpend] at hrev
          cases hrev
        · rw [hpend] at hc
          cases hc
  · exact hold

theorem closedUnpaid_closed (h : closedUnpaid s itemId = true) : ItemClosed s itemId := by
  unfold closedUnpaid at h
  obtain ⟨i, hi, hp⟩ := exist_iff.mp h
  rw [Bool.and_eq_true, beq_iff_eq] at hp
  obtain ⟨o, ho, hst⟩ := orderIs_iff.mp hp.2
  rw [Bool.and_eq_true, Bool.or_eq_true, beq_iff_eq, beq_iff_eq] at hst
  refine ⟨i, o, get?_eq_some_iff.mpr ⟨hi, hp.1⟩, ho, ?_⟩
  rcases hst.1 with he | hc
  · rw [he]
    rfl
  · rw [hc]
    rfl

theorem releaseUpgrades_accessKept : Within AccessKept releaseUpgradesStatement := by
  intro c s n s' h hi
  obtain ⟨-, t, ht, rfl⟩ := update_ok h
  refine ⟨fun u hu => ?_, hi.agents⟩
  have hu' : u ∈ t.rows := hu
  rw [ht] at hu'
  obtain ⟨v, hv, rfl⟩ := mem_map.mp hu'
  split
  · next hp =>
    rw [Bool.and_eq_true] at hp
    exact Or.inr ⟨rfl, closedUnpaid_closed hp.2⟩
  · exact hi.upgrades v hv

theorem releaseAgents_accessKept : Within AccessKept releaseAgentsStatement := by
  intro c s n s' h hi
  obtain ⟨-, t, ht, rfl⟩ := update_ok h
  refine ⟨hi.upgrades, fun a ha => ?_⟩
  have ha' : a ∈ t.rows := ha
  rw [ht] at ha'
  obtain ⟨b, hb, rfl⟩ := mem_map.mp ha'
  split
  · next hp =>
    rw [Bool.and_eq_true] at hp
    exact Or.inr (Or.inr ⟨rfl, closedUnpaid_closed hp.2⟩)
  · exact hi.agents b hb

theorem PreparedAccess.accessKept (a : PreparedAccess) (itemId : Id) :
    ∀ st ∈ a.statements itemId, Within AccessKept st := by
  intro st hst
  cases a with
  | upgrade quoteId =>
    refine each_two ?_ ?_ _ hst
    · exact releaseUpgrades_accessKept
    · intro c s n s' h hi
      obtain ⟨-, t, ht, rfl⟩ := insert_abort_ok h
      refine ⟨fun u hu => ?_, hi.agents⟩
      have hu' : u ∈ t.rows := hu
      rw [ht] at hu'
      rcases mem_append.mp hu' with hold | hnew
      · exact hi.upgrades u hold
      · rw [mem_singleton.mp hnew]
        exact Or.inl ⟨fun h => (nomatch h), rfl⟩
  | agent userId kind =>
    rw [mem_singleton.mp hst]
    intro c s n s' h hi
    obtain ⟨-, t, ht, rfl⟩ := insert_abort_ok h
    refine ⟨hi.upgrades, fun b hb => ?_⟩
    have hb' : b ∈ t.rows := hb
    rw [ht] at hb'
    rcases mem_append.mp hb' with hold | hnew
    · exact hi.agents b hold
    · rw [mem_singleton.mp hnew]
      exact Or.inl ⟨fun h => (nomatch h), rfl⟩

/-! ## The system -/

variable {α : Type}

inductive AccessCall where
  | shop (c : ShopCall)
  | checkout (c : Checkout) (cart : AccessCart)
  | upgrade (deliveryId : Id) (e : UpgradeEnv)
  | agent (deliveryId : Id) (e : AgentEnv)

def AccessCall.code : AccessCall → Call Site Unit
  | .shop c => c.code
  | .checkout c cart => (createAccessOrder c cart).void
  | .upgrade deliveryId e => (processUpgradeDelivery deliveryId e).void
  | .agent deliveryId e => (processAgentDelivery deliveryId e).void

def accessSpec : Spec Db Site Empty :=
  Spec.ofRel AccessInv accessHeld (fun _ _ => True) (fun _ _ => True) (fun _ => trivial)
    (fun _ => trivial) fun _ _ _ _ _ => trivial

theorem access_admits : AdmitsShop accessSpec (fun _ => True) := by
  intro x sts t ns u h hi hc hb
  refine Spec.admits_ofRel ?_ trivial fun _ => trivial
  by_cases hpay : x.isPayment
  · cases h with
    | orderPayment channelId event context order coupon fulfillment e hcontext horder hseen hful =>
      obtain ⟨t1, t2, t3, t4, hsteps⟩ := orderPaymentBatch_ok hb
      refine hsteps.accessKept (fun st hst => ?_) (hseen.imp And.left And.left) hc hi
      have hquiet : QuietStmt False False False st := afterPaymentEvent_stmts hful st hst
      exact hquiet.accessFrame
    | _ => exact hpay.elim
  · refine batch_accessKept (fun st hst => frame_accessKept ?_) hb hi
    have hst' := h.stmts st hst
    rw [show x.isPayment = False from eq_false hpay] at hst'
    exact hst'.accessFrame

theorem only_accessKept {p : Call Site α} (h : Prog.Only (Within AccessKept) p) (s : Db) : Bare accessSpec p s :=
  h.bare (R := AccessKept) (fun _ => id) (fun _ _ _ h h' hi => h' (h hi)) (fun _ hst => hst)
    (fun _ _ hi h => Spec.admits_ofRel (h hi) trivial fun _ => trivial) s

/-! ### Deliveries -/

theorem completeOrder_accessKept (orderId : Id) (now : Time) :
    Within AccessKept (completeOrderStatement orderId now) := by
  refine frame_accessKept (updateOrders_accessFrame (fun _ _ => rfl) fun s o hp _ => ?_)
  rw [Bool.and_eq_true, Bool.and_eq_true] at hp
  exact deliverable_counts hp.1.2

theorem activateGrants_accessKept (itemId : Id) (now : Time) :
    ∀ st ∈ activateEntitlementGrantStatements itemId now, Within AccessKept st := by
  intro st hst
  refine each_two ?_ ?_ _ hst <;>
    exact frame_accessKept (keeps_accessFrame (update_off rfl))

theorem upgradeBatch_accessKept (row : UpgradeRow) (d : Id) (content : Nat) (now : Time) :
    ∀ st ∈ upgradeBatch row d content now, Within AccessKept st := by
  intro st hst
  simp only [upgradeBatch, mem_append, mem_cons, not_mem_nil, or_false] at hst
  rcases hst with ((rfl | rfl) | hst) | rfl | rfl | rfl
  · refine updateUpgrades_accessKept fun s u hp => ⟨rfl, rfl, rfl, ?_⟩
    rw [Bool.and_eq_true, Bool.and_eq_true, beq_iff_eq, beq_iff_eq] at hp
    simp [hp.1.2]
  · exact frame_accessKept (keeps_accessFrame (update_off rfl))
  · exact activateGrants_accessKept _ _ st hst
  · exact completeOrder_accessKept _ _
  · exact frame_accessKept (keeps_accessFrame (insert_off rfl))
  · exact frame_accessKept (keeps_accessFrame (insert_off rfl))

theorem agentBatch_accessKept (row : AgentRow) (d : Id) (now : Time) :
    ∀ st ∈ agentBatch row d now, Within AccessKept st := by
  intro st hst
  simp only [agentBatch, mem_append, mem_cons, not_mem_nil, or_false] at hst
  rcases hst with ((rfl | rfl) | hst) | rfl | rfl
  · refine updateAgents_accessKept fun s a hp => Or.inr ⟨rfl, rfl, rfl, rfl, Or.inr ⟨?_, rfl⟩⟩
    rw [Bool.and_eq_true, Bool.and_eq_true, Bool.and_eq_true, beq_iff_eq, beq_iff_eq] at hp
    exact hp.1.1.2
  · exact frame_accessKept (keeps_accessFrame (update_off rfl))
  · exact activateGrants_accessKept _ _ st hst
  · exact completeOrder_accessKept _ _
  · exact frame_accessKept (keeps_accessFrame (insert_off rfl))

theorem recordUpgradeFailure_only (row : UpgradeRow) (d : Id) (code : String) (now : Time) :
    Only (Within AccessKept) (recordUpgradeFailure row d code now) := by
  unfold recordUpgradeFailure
  refine Only.bind (Only.commit fun st hst => ?_) fun _ => by split <;> trivial
  refine each_two ?_ ?_ _ hst
  · refine updateUpgrades_accessKept fun s u hp => ⟨rfl, rfl, rfl, ?_⟩
    rw [Bool.and_eq_true, beq_iff_eq, beq_iff_eq] at hp
    dsimp only
    split <;> simp [hp.2]
  · exact frame_accessKept (keeps_accessFrame (update_off rfl))

theorem processUpgradeDelivery_only (d : Id) (e : UpgradeEnv) :
    Only (Within AccessKept) (processUpgradeDelivery d e) := by
  unfold processUpgradeDelivery
  refine Only.query fun row? => ?_
  cases row? with
  | none => trivial
  | some row =>
    dsimp only
    split
    · trivial
    split
    · trivial
    split
    · trivial
    split
    · exact (recordUpgradeFailure_only _ _ _ _).bind fun _ => trivial
    · refine Only.bind (Only.commit fun st hst => ?_) fun lease => ?_
      · rw [mem_singleton.mp hst]
        exact updateUpgrades_accessKept fun s u _ => ⟨rfl, rfl, rfl, Iff.rfl⟩
      · split
        · trivial
        · refine Only.bind (Only.tryCatch ?_ fun _ => recordUpgradeFailure_only _ _ _ _) fun _ => trivial
          cases e.answer with
          | error code => trivial
          | ok content =>
            exact Only.bind (Only.commit (upgradeBatch_accessKept _ _ _ _)) fun _ =>
              Only.query fun _ => trivial

theorem agentRow_accessKept (hf : ∀ s a, (f s a).orderItemId = a.orderItemId ∧ (f s a).activeKey = a.activeKey ∧
      (f s a).userId = a.userId ∧ (f s a).kind = a.kind ∧ (f s a).state = a.state) :
    ∀ st ∈ [update Db.agentOrdersT p f], Within AccessKept st := by
  intro st hst
  rw [mem_singleton.mp hst]
  refine updateAgents_accessKept fun s a _ => Or.inr ?_
  obtain ⟨hitem, hkey, huser, hkind, hstate⟩ := hf s a
  exact ⟨hitem, hkey, huser, hkind, Or.inl hstate⟩

theorem deliverAgentAccess_only (row : AgentRow) (d : Id) (e : AgentEnv) :
    Only (Within AccessKept) (deliverAgentAccess row d e) := by
  unfold deliverAgentAccess
  refine Only.tryCatch ?_ fun _ => Only.bind (Only.commit (agentRow_accessKept
    fun _ _ => ⟨rfl, rfl, rfl, rfl, rfl⟩)) fun _ => trivial
  split
  · refine Only.bind (Only.commit (agentRow_accessKept fun _ _ => ⟨rfl, rfl, rfl, rfl, rfl⟩))
      fun _ => Only.query fun encrypted => ?_
    cases e.provision with
    | none => trivial
    | some answer =>
      dsimp only
      split
      · trivial
      split
      · trivial
      refine Only.bind ?_ fun _ => Only.bind (Only.commit (agentBatch_accessKept _ _ _)) fun _ =>
        Only.query fun _ => trivial
      unfold clearPassword
      split
      · trivial
      · exact Only.bind (Only.commit (agentRow_accessKept fun _ _ => ⟨rfl, rfl, rfl, rfl, rfl⟩)) fun _ => trivial
  · trivial

theorem processAgentDelivery_only (d : Id) (e : AgentEnv) : Only (Within AccessKept) (processAgentDelivery d e) := by
  unfold processAgentDelivery
  refine Only.query fun row? => ?_
  cases row? with
  | none => trivial
  | some row =>
    dsimp only
    split
    · trivial
    split
    · trivial
    split
    · refine Only.bind ?_ fun _ => trivial
      unfold revokeAgentAccess
      split
      · refine Only.bind (Only.commit fun st hst => ?_) fun _ => trivial
        rw [mem_singleton.mp hst]
        exact updateAgents_accessKept fun _ _ _ => Or.inl rfl
      · trivial
    split
    · trivial
    split
    · trivial
    split
    · trivial
    split
    · trivial
    · refine Only.bind (Only.commit (agentRow_accessKept fun _ _ => ⟨rfl, rfl, rfl, rfl, rfl⟩)) fun lease => ?_
      split
      · trivial
      · exact (deliverAgentAccess_only _ _ _).bind fun _ => trivial

/-! ### Checkout -/

theorem accessCheckoutBatch_kept (c : Checkout) (capacity : List Id) (a : PreparedAccess) :
    ∀ st ∈ accessCheckoutBatch c capacity a, Within AccessKept st := by
  -- apart from the row, the batch is one of the shop
  have hshop : ∀ st ∈ checkoutBatch c capacity none, Within AccessKept st := by
    intro st hst
    have hquiet : QuietStmt False True False st := checkout_stmts c capacity none st hst
    exact frame_accessKept hquiet.accessFrame
  intro st hst
  simp only [accessCheckoutBatch, mem_append, mem_flatMap] at hst
  have hin : st ∈ checkoutBatch c capacity none ∨ ∃ i, st ∈ a.statements i := by
    simp only [checkoutBatch, mem_append, mem_flatMap]
    rcases hst with (hst | ⟨item, hitem, hst⟩) | hst
    · exact Or.inl (Or.inl (Or.inl (Or.inl hst)))
    · simp only [accessLineStatements, mem_append] at hst
      rcases hst with (hst | hst) | hst
      · exact Or.inl (Or.inl (Or.inl (Or.inr ⟨item, hitem, mem_of_mem_take hst⟩)))
      · exact Or.inr ⟨item.id, hst⟩
      · exact Or.inl (Or.inl (Or.inl (Or.inr ⟨item, hitem, mem_of_mem_drop hst⟩)))
    · exact Or.inl (Or.inl (Or.inr hst))
  rcases hin with hold | ⟨i, hnew⟩
  · exact hshop st hold
  · exact a.accessKept i st hnew

theorem liftExcept_only {P : Stmt Db → Prop} (r : Except DomainError α) : Only P (liftExcept r : Call Site α) := by
  cases r <;> trivial

theorem prepareAccess_only (c : Checkout) (cart : AccessCart) : Only (Within AccessKept) (prepareAccess c cart) := by
  cases cart with
  | upgrade quote =>
    simp only [prepareAccess]
    split
    · trivial
    · exact (liftExcept_only quote).bind fun _ => trivial
  | agent kind buyer eligible =>
    simp only [prepareAccess]
    split
    · trivial
    cases c.userId with
    | none => trivial
    | some userId =>
      refine (liftExcept_only buyer).bind fun _ => Only.bind (Only.commit fun st hst => ?_) fun _ =>
        Only.query fun old => ?_
      · rw [mem_singleton.mp hst]
        exact releaseAgents_accessKept
      · split
        · trivial
        · exact (liftExcept_only eligible).bind fun _ => trivial

theorem createAccessOrder_bare (c : Checkout) (cart : AccessCart) (s : Db) :
    Bare accessSpec (createAccessOrder c cart) s := by
  unfold createAccessOrder
  cases c.customer with
  | none => exact .throw _
  | some customer =>
    refine (only_accessKept (prepareAccess_only c cart) s).bind fun access t _ =>
      (prepareLines_bare _ _ _).bind fun capacity u _ => ?_
    refine only_accessKept (Only.tryCatch (Only.bind (Only.commit ?_) fun _ => ?_) fun _ => ?_) u
    · exact accessCheckoutBatch_kept c capacity access
    · trivial
    · trivial

theorem AccessCall.bare (c : AccessCall) (s : Db) : Bare accessSpec c.code s := by
  cases c with
  | shop c => exact c.bare access_admits (by cases c <;> trivial) s
  | checkout c cart => exact (createAccessOrder_bare c cart s).void
  | upgrade d e => exact (only_accessKept (processUpgradeDelivery_only d e) s).void
  | agent d e => exact (only_accessKept (processAgentDelivery_only d e) s).void

/-- In every run whose late payments find the row of their order still holding its key, what is paid
can be delivered and no key is held twice. -/
theorem access_fulfillable {s : Db} (h0 : AccessInv s) {w : World Db Site DomainError Unit}
    (hrun : Runs AccessCall.code accessHeld ⟨s, []⟩ w) : AccessFulfillable w.db :=
  (Runs.sound accessSpec (fun c s _ => (c.bare s).ok) hrun (good_idle _ h0)).1.1.fulfillable

/-! ## Two runs -/

def upgradeShopDb : Db where
  sellableItems := .ok [{ id := 7 }]
  channels := .ok [{ id := 1, provider := .stripe }]

theorem upgradeShopDb_inv : AccessInv upgradeShopDb :=
  ⟨fun _ h => (nomatch h), fun _ h => (nomatch h)⟩

/-- An order for a quote expires, is paid late, and the quote is tried again. -/
def paidBeforeReleaseRun : World Db Site DomainError Unit :=
  World.exec AccessCall.code accessHeld ⟨upgradeShopDb, []⟩
    (oneByOne [.checkout (planCheckout 1 1 0) (.upgrade (.ok 5)), .shop (startedPayment 1 1),
      .shop (.expire 10 10), .shop (paymentArrives 1 12),
      .checkout (planCheckout 2 1 13) (.upgrade (.ok 5))] 10)

theorem access_fulfillable_paidBeforeReleaseRun :
    (paidBeforeReleaseRun.db.orders.get? 1).map (·.status) = some .paid ∧
      paidBeforeReleaseRun.db.upgradeOrders.rows.map (fun u => (u.orderItemId, u.state)) =
        [(1, .pending)] ∧ AccessFulfillable paidBeforeReleaseRun.db :=
  ⟨by set_option maxRecDepth 50000 in decide, by set_option maxRecDepth 50000 in decide,
    access_fulfillable upgradeShopDb_inv
    (World.exec_runs AccessCall.code accessHeld _ _)⟩

/-- Between the expiry and the late payment somebody else buys an upgrade. -/
def releasedThenPaidRun : World Db Site DomainError Unit :=
  World.exec AccessCall.code anySite ⟨upgradeShopDb, []⟩
    (oneByOne [.checkout (planCheckout 1 1 0) (.upgrade (.ok 5)), .shop (startedPayment 1 1),
      .shop (.expire 10 10), .checkout (planCheckout 2 1 11) (.upgrade (.ok 6)),
      .shop (paymentArrives 1 12)] 10)

/-- The order is paid, and its row is cancelled. -/
theorem not_access_fulfillable : ¬∀ s, AccessInv s → ∀ w : World Db Site DomainError Unit,
      Runs AccessCall.code anySite ⟨s, []⟩ w → AccessFulfillable w.db := by
  intro h
  have hful := h upgradeShopDb upgradeShopDb_inv releasedThenPaidRun (World.exec_runs AccessCall.code anySite _ _)
  have hpaid : ∃ o ∈ releasedThenPaidRun.db.orders.rows, o.status.deliverable = true ∧
      accessReleased releasedThenPaidRun.db o.id = true := by set_option maxRecDepth 50000 in decide
  obtain ⟨o, ho, hd, hr⟩ := hpaid
  rw [hful.held o ho hd] at hr
  cases hr

end Gmshop
