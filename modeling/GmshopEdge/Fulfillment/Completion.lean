import GmshopEdge.Fulfillment.OpenOrder

/-!
# The last delivery completes the order

`processDelivery` and `completeManualDelivery` advance the order by a compare-and-swap on the row they
read and to a status they computed from an earlier count, while their record is delivered whether or
not the swap hits. Where the call that delivers the last record of an order has read the order as it
is (`lastReadsCurrent`), an order whose records are all delivered is `completed`.
-/

namespace Gmshop

open List Sql Stmt Prog Table

def AllDelivered (s : Db) (orderId : Id) : Prop :=
  ∀ d ∈ s.deliveries.rows, s.itemOf orderId d.orderItemId = true → d.status = .delivered

def lastDelivery (s : Db) (d : DeliveryRef) : Prop :=
  remainingDeliveries s d.orderId d.id = 0 ∧ ∃ r ∈ s.deliveries.get? d.id, r.status ≠ .delivered

instance (s : Db) (d : DeliveryRef) : Decidable (lastDelivery s d) :=
  inferInstanceAs (Decidable (_ ∧ _))

/-- The condition on the two batches: a call that is about to deliver the last record of its order
has read the order's status and version as they still are and counted no other open record (unless
the order is completed already). -/
def lastReadsCurrent (x : Site) (s : Db) : Prop :=
  match x with
  | .processDelivery d remaining => lastDelivery s d → s.orderIs d.orderId (fun o => o.status == .completed) = true ∨
        (s.orderIs d.orderId (fun o => o.status == d.orderStatus && o.version == d.orderVersion) =
          true ∧ remaining = 0)
  | .completeManualDelivery d remaining => lastDelivery s d →
      s.orderIs d.orderId (fun o => o.status == .completed) = true ∨
        (s.orderIs d.orderId (fun o => o.status == d.orderStatus && o.version == d.orderVersion) =
          true ∧ remaining = 0)
  | _ => True

instance (x : Site) (s : Db) : Decidable (lastReadsCurrent x s) := by
  casesm Site <;> dsimp only [lastReadsCurrent] <;> infer_instance

/-- Order `i` is on its way, and completed once every record of it is delivered. -/
structure OnItsWay (i : Id) (s : Db) : Prop where
  order : ∃ o, s.orders.get? i = some o ∧ (o.status.deliverable = true ∨ o.status = .completed) ∧
    (AllDelivered s i → o.status = .completed)

def waySpec (i : Id) : Spec Db Site Empty where
  inv := OnItsWay i
  cond := lastReadsCurrent
  guar _ _ := True
  rely := openSpec.rely
  issued _ := ∅
  guar_refl _ := trivial
  rely_refl := openSpec.rely_refl
  rely_trans := openSpec.rely_trans
  issued_mono _ _ _ := Set.Subset.rfl

variable {D I : Id → Prop} {d item : Id} {c content n remaining : Nat} {now : Time} {s1 s2 : Db} {ns : List Nat}

section Steps

variable {t u : Db} {i : Id}

theorem allDelivered_before (h : Flips D I t u) (hall : AllDelivered u i) {r : DeliveryRecord}
    (hr : r ∈ t.deliveries.rows) (hi : t.itemOf i r.orderItemId = true) : r.status = .delivered ∨ D r.id := by
  obtain ⟨f, hf, hfr⟩ := h.deliveries
  obtain ⟨h1, h2, h3⟩ := hf r
  refine h3 (hall (f r) (by rw [hfr]; exact mem_map_of_mem hr) ?_)
  unfold Db.itemOf
  rw [h.items, h2]
  exact hi

theorem remaining_zero (h : Flips (· = d) I t u) (hall : AllDelivered u i) : remainingDeliveries t i d = 0 := by
  unfold remainingDeliveries
  rw [Table.count_eq_zero]
  intro r hr
  by_contra hne
  simp only [undelivered, Bool.not_eq_false, Bool.and_eq_true, bne_iff_ne] at hne
  rcases allDelivered_before h hall hr hne.1.1 with hs | hid
  · exact hne.1.2 hs
  · exact hne.2 hid

theorem allDelivered_other {o : Id} (h : Flips (· = d) I t u) (hl : Linked d item o t) (ho : o ≠ i)
    (hall : AllDelivered u i) : AllDelivered t i := by
  intro r hr hi
  rcases allDelivered_before h hall hr hi with hs | hid
  · exact hs
  · exfalso
    obtain ⟨r0, h0, h0i⟩ := hl.record
    obtain ⟨x, hx, hxo⟩ := hl.item
    have hrr : r = r0 := eq_of_key hr (get?_mem h0) (hid.trans (get?_key h0).symm)
    obtain ⟨y, hy, hyp⟩ := exist_iff.mp hi
    rw [Bool.and_eq_true, beq_iff_eq, beq_iff_eq] at hyp
    have hxy : y = x := eq_of_key hy (get?_mem hx) (by
      show y.id = x.id
      rw [hyp.2, hrr, h0i]
      exact (get?_key hx).symm)
    exact ho (hxo.symm.trans (hxy ▸ hyp.1))

theorem way_admits (h : Flips D I t u) (hw : OnItsWay i u) : (waySpec i).Admits ∅ ∅ t u := by
  obtain ⟨f, hf, hfr⟩ := h.deliveries
  refine ⟨hw, trivial, fun _ _ _ => ⟨h.items, fun d r hr => ?_⟩, Set.empty_subset _⟩
  exact ⟨f r, by rw [get?_map hfr (fun r => (hf r).1), hr]; rfl, (hf r).2.1⟩

theorem onItsWay_same (hw : OnItsWay i t) (ho : u.orders = t.orders)
    (hall : AllDelivered u i → AllDelivered t i) : OnItsWay i u := by
  obtain ⟨o, hi, hst, hdone⟩ := hw.order
  exact ⟨o, by rw [ho]; exact hi, hst, fun h => hdone (hall h)⟩

theorem swap_get? {o : ShopOrder} {d : DeliveryRef} {st : ShopOrderStatus}
    (h : updateOrders (fun _ o => orderCas d.orderId d.orderStatus d.orderVersion o)
      (fun _ o => setStatus st (d.orderVersion + 1) now o) c s1 = .ok (n, s2)) (ho : s1.orders = t.orders)
    (hi : t.orders.get? i = some o) :
    s2.orders.get? i = some (if orderCas d.orderId d.orderStatus d.orderVersion o then
      setStatus st (d.orderVersion + 1) now o else o) := by
  obtain ⟨-, hrows⟩ := updateOrders_rows (f := fun _ o => setStatus st (d.orderVersion + 1) now o) (fun _ _ => rfl) h
  rw [ho] at hrows
  rw [get?_map hrows ?_ i, hi]
  · rfl
  · intro y
    split <;> rfl

theorem progress_onItsWay {d : DeliveryRef} (hw : OnItsWay i t) (hl : Linked d.id d.orderItemId d.orderId t)
    (hflips : Flips (· = d.id) (· = d.orderItemId) t u) (hst : d.orderStatus.deliverable = true)
    (hcond : lastDelivery t d → t.orderIs d.orderId (fun o => o.status == .completed) = true ∨
      (t.orderIs d.orderId (fun o => o.status == d.orderStatus && o.version == d.orderVersion) =
        true ∧ remaining = 0))
    (h : updateOrders (fun _ o => orderCas d.orderId d.orderStatus d.orderVersion o)
      (fun _ o => setStatus (nextOrderStatus remaining) (d.orderVersion + 1) now o) c s1 =
        .ok (n, s2)) (ho1 : s1.orders = t.orders) (ho2 : u.orders = s2.orders) : OnItsWay i u := by
  obtain ⟨o, hi, host, hdone⟩ := hw.order
  have hget := swap_get? h ho1 hi
  rw [← ho2] at hget
  have hid : o.id = i := get?_key hi
  by_cases hcas : orderCas d.orderId d.orderStatus d.orderVersion o = true
  · -- the swap hits order `i`
    rw [if_pos hcas] at hget
    have hcas' : o.id = d.orderId ∧ o.status = d.orderStatus ∧ o.version = d.orderVersion := by
      simpa [orderCas] using hcas
    have hdi : d.orderId = i := hcas'.1.symm.trans hid
    refine ⟨_, hget, ?_, fun hall => ?_⟩
    · show (nextOrderStatus remaining).deliverable = true ∨ nextOrderStatus remaining = .completed
      unfold nextOrderStatus
      by_cases hr : remaining = 0
      · exact Or.inr (if_pos hr)
      · rw [if_neg hr]
        exact Or.inl rfl
    · have hzero := remaining_zero hflips hall
      obtain ⟨r, hr, -⟩ := hl.record
      -- were the record delivered before, the order would have been completed
      have hopen : r.status ≠ .delivered := by
        intro hd
        have hbefore : AllDelivered t i := by
          intro x hx hxi
          rcases allDelivered_before hflips hall hx hxi with hs | hxid
          · exact hs
          · have hxr : x = r := eq_of_key hx (get?_mem hr) (hxid.trans (get?_key hr).symm)
            rw [hxr]
            exact hd
        rw [← hcas'.2.1, hdone hbefore] at hst
        cases hst
      rcases hcond ⟨by rw [hdi]; exact hzero, r, hr, hopen⟩ with hdoneo | ⟨-, hrem⟩
      · exfalso
        obtain ⟨x, hx, hxp⟩ := exist_iff.mp hdoneo
        rw [Bool.and_eq_true, beq_iff_eq, beq_iff_eq] at hxp
        have hxo : x = o := eq_of_key hx (get?_mem hi) (hxp.1.trans hcas'.1.symm)
        rw [← hcas'.2.1, ← hxo, hxp.2] at hst
        cases hst
      · exact if_pos hrem
  · rw [if_neg hcas] at hget
    refine ⟨o, hget, host, fun hall => ?_⟩
    by_cases hdi : d.orderId = i
    · -- a lost swap: only a record that was delivered before may be the call's own
      by_contra hnot
      have hzero := remaining_zero hflips hall
      have hopen : ∃ r, t.deliveries.get? d.id = some r ∧ r.status ≠ .delivered := by
        by_contra hno
        refine hnot (hdone fun x hx hxi => ?_)
        rcases allDelivered_before hflips hall hx hxi with hs | hxid
        · exact hs
        · by_contra hxs
          exact hno ⟨x, get?_eq_some_iff.mpr ⟨hx, hxid⟩, hxs⟩
      obtain ⟨r, hr, hrs⟩ := hopen
      rcases hcond ⟨by rw [hdi]; exact hzero, r, hr, hrs⟩ with hdoneo | ⟨hcur, -⟩
      · obtain ⟨x, hx, hxp⟩ := exist_iff.mp hdoneo
        rw [Bool.and_eq_true, beq_iff_eq, beq_iff_eq] at hxp
        have hxo : x = o := eq_of_key hx (get?_mem hi) ((hxp.1.trans hdi).trans hid.symm)
        exact hnot (hxo ▸ hxp.2)
      · obtain ⟨x, hx, hxp⟩ := exist_iff.mp hcur
        rw [Bool.and_eq_true, beq_iff_eq] at hxp
        have hxo : x = o := eq_of_key hx (get?_mem hi) ((hxp.1.trans hdi).trans hid.symm)
        refine hcas ?_
        unfold orderCas
        rw [← hxo, Bool.and_eq_true, beq_iff_eq]
        exact ⟨hxp.1, hxp.2⟩
    · exact hdone (allDelivered_other hflips hl hdi hall)

/-! ## The batches -/

theorem activateGrants_orders (itemId : Id) (now : Time) :
    ∀ st ∈ activateEntitlementGrantStatements itemId now, Keeps Db.orders st := by
  intro st hst
  exact each_two (update_off rfl) (update_off rfl) _ hst

theorem orderProgress_swap {d : DeliveryRef}
    (hb : batch (orderProgressStatements d remaining now) c s1 = .ok (ns, s2)) :
    ∃ n s', updateOrders (fun _ o => orderCas d.orderId d.orderStatus d.orderVersion o)
      (fun _ o => setStatus (nextOrderStatus remaining) (d.orderVersion + 1) now o) c s1 =
        .ok (n, s') ∧ s2.orders = s'.orders := by
  obtain ⟨n, s', ns', h, hrest, -⟩ := batch_cons_ok hb
  refine ⟨n, s', h, batch_keeps ?_ hrest⟩
  intro st hst
  exact each_two (insert_off rfl) (insert_off rfl) _ hst

section

variable (hw : OnItsWay i t)
include hw

theorem deliver_way {c : DeliveryContext} {content : Option DeliveryContent}
    (hl : Linked c.id c.orderItemId c.orderId t) (hst : c.orderStatus.deliverable = true)
    (hcond : lastReadsCurrent (.processDelivery c.toDeliveryRef n) t)
    (hb : batch (deliverBatch c content n now) 0 t = .ok (ns, u)) : (waySpec i).Admits ∅ ∅ t u := by
  have hflips := deliverBatch_flips hb
  refine way_admits hflips ?_
  obtain ⟨_, s4, _, hb, h5, -⟩ := batch_append_ok hb
  obtain ⟨_, s3, _, hb, h4, -⟩ := batch_append_ok hb
  obtain ⟨_, s2, _, h12, h3, -⟩ := batch_append_ok hb
  have ho2 : s2.orders = t.orders := by
    refine batch_keeps (fun st hst => ?_) h12
    simp only [mem_append, mem_cons, not_mem_nil, or_false] at hst
    rcases hst with (rfl | rfl) | hst
    · exact update_off rfl
    · exact abortWhen_keeps
    · split at hst
      · rw [mem_singleton.mp hst]
        exact update_off rfl
      · cases hst
  have ho4 : s4.orders = s3.orders := by
    refine batch_keeps (fun st hst => ?_) h4
    rw [mem_singleton.mp hst]
    exact update_off rfl
  have hou : u.orders = s4.orders := by
    refine batch_keeps (fun st hst => ?_) h5
    split at hst
    · exact activateGrants_orders _ _ st hst
    · cases hst
  obtain ⟨_, s', h, ho3⟩ := orderProgress_swap h3
  exact progress_onItsWay hw hl hflips hst hcond h ho2 (hou.trans (ho4.trans ho3))

theorem completeManual_way {d : DeliveryRef} (hl : Linked d.id d.orderItemId d.orderId t)
    (hst : d.orderStatus.deliverable = true) (hcond : lastReadsCurrent (.completeManualDelivery d n) t)
    (hb : batch (completeManualBatch d content n now) 0 t = .ok (ns, u)) : (waySpec i).Admits ∅ ∅ t u := by
  have hflips := completeManualBatch_flips hb
  refine way_admits hflips ?_
  obtain ⟨_, s2, _, hb, h3, -⟩ := batch_append_ok hb
  obtain ⟨_, s1, _, h1, h2, -⟩ := batch_append_ok hb
  have ho1 : s1.orders = t.orders := by
    refine batch_keeps (fun st hst => ?_) h1
    rw [mem_singleton.mp hst]
    exact update_off rfl
  have hou : u.orders = s2.orders := batch_keeps (activateGrants_orders _ _) h3
  obtain ⟨_, s', h, ho2⟩ := orderProgress_swap h2
  exact progress_onItsWay hw hl hflips hst hcond h ho1 (hou.trans ho2)

theorem startManual_way {d : DeliveryRef} (hst : d.orderStatus.deliverable = true)
    (hb : batch (startManualBatch d now) 0 t = .ok (ns, u)) : (waySpec i).Admits ∅ ∅ t u := by
  have hflips := startManualBatch_flips hb
  refine way_admits hflips ?_
  have hall : AllDelivered u i → AllDelivered t i := fun h r hr hi =>
    (allDelivered_before hflips h hr hi).resolve_right id
  obtain ⟨o, hi, host, hdone⟩ := hw.order
  obtain ⟨_, s1, _, h1, hb1, -⟩ := batch_cons_ok hb
  obtain ⟨_, s2, _, h2, hb2, -⟩ := batch_cons_ok hb1
  have ho1 : s1.orders = t.orders := Keeps.eq (update_off rfl) h1
  have hou : u.orders = s2.orders := by
    refine batch_keeps (fun st hst => ?_) hb2
    rw [mem_singleton.mp hst]
    exact insert_off rfl
  have hget := swap_get? h2 ho1 hi
  rw [← hou] at hget
  by_cases hcas : orderCas d.orderId d.orderStatus d.orderVersion o = true
  · rw [if_pos hcas] at hget
    refine ⟨_, hget, Or.inl rfl, fun h => ?_⟩
    simp only [orderCas, Bool.and_eq_true, beq_iff_eq] at hcas
    rw [← hcas.2.1, hdone (hall h)] at hst
    cases hst
  · rw [if_neg hcas] at hget
    exact ⟨o, hget, host, fun h => hdone (hall h)⟩

theorem completeOrder_onItsWay {orderId : Nat} (hl : Linked d item orderId t)
    (hflips : Flips (· = d) (· = item) t u) (h : completeOrderStatement orderId now c s1 = .ok (n, s2))
    (ho1 : s1.orders = t.orders) (ho2 : u.orders = s2.orders)
    (hsame : s1.deliveries = u.deliveries ∧ s1.items = u.items) : OnItsWay i u := by
  obtain ⟨o, hi, host, hdone⟩ := hw.order
  obtain ⟨-, hrows⟩ := updateOrders_rows (f := fun _ o => advanceOrder .completed now o) (fun _ _ => rfl) h
  rw [ho1] at hrows
  have hget := get?_map hrows (fun y => by split <;> rfl) i
  rw [hi, ← ho2] at hget
  refine ⟨_, hget, ?_, fun hall => ?_⟩
  · dsimp only
    split
    · exact Or.inr rfl
    · exact host
  · dsimp only
    split
    · rfl
    · next hno =>
      by_cases hoi : orderId = i
      · by_contra hnot
        refine hno ?_
        have hdone1 : s1.deliveries.exist (undelivered s1 o.id) = false := by
          rw [exist_false_iff]
          intro r hr
          by_contra hne
          simp only [undelivered, Bool.not_eq_false, Bool.and_eq_true, bne_iff_ne] at hne
          rw [hsame.1] at hr
          refine hne.2 (hall r hr ?_)
          have hitem := hne.1
          unfold Db.itemOf at hitem ⊢
          rw [← hsame.2, ← (show o.id = i from get?_key hi)]
          exact hitem
        rw [hdone1, Bool.not_false, Bool.and_true, Bool.and_eq_true, beq_iff_eq]
        exact ⟨(get?_key hi).trans hoi.symm, host.resolve_right hnot⟩
      · exact hdone (allDelivered_other hflips hl hoi hall)

theorem complete_way {xs ys : List (Stmt Db)} {orderId : Id} (hl : Linked d item orderId t)
    (hflips : Flips (· = d) (· = item) t u) (hxs : ∀ st ∈ xs, Keeps Db.orders st)
    (hys : ∀ st ∈ ys, Keeps (fun s => (s.orders, s.deliveries, s.items)) st)
    (hb : batch (xs ++ completeOrderStatement orderId now :: ys) 0 t = .ok (ns, u)) : (waySpec i).Admits ∅ ∅ t u := by
  refine way_admits hflips ?_
  obtain ⟨_, s1, _, h1, hb1, -⟩ := batch_append_ok hb
  obtain ⟨_, s2, _, h2, h3, -⟩ := batch_cons_ok hb1
  have hu := batch_keeps hys h3
  simp only [Prod.mk.injEq] at hu
  have hk := Keeps.eq (updateOrders_keeps (g := fun s => (s.deliveries, s.items))
    (by constructor <;> exact fun _ _ => rfl) fun _ _ => rfl) h2
  simp only [Prod.mk.injEq] at hk
  exact completeOrder_onItsWay hw hl hflips h2 (batch_keeps hxs h1) hu.1
    ⟨hk.1.symm.trans hu.2.1.symm, hk.2.symm.trans hu.2.2.symm⟩

theorem upgrade_way {row : UpgradeRow} (hl : Linked d row.orderItemId row.orderId t)
    (hb : batch (upgradeBatch row d content now) 0 t = .ok (ns, u)) : (waySpec i).Admits ∅ ∅ t u := by
  refine complete_way hw hl (upgradeBatch_flips hb) (fun st hst => ?_) (fun st hst => ?_) hb
  · simp only [mem_append, mem_cons, not_mem_nil, or_false] at hst
    rcases hst with (rfl | rfl) | hst
    · exact update_off rfl
    · exact update_off rfl
    · exact activateGrants_orders _ _ st hst
  · exact each_two (insert_off rfl) (insert_off rfl) _ hst

theorem agent_way {row : AgentRow} (hl : Linked d row.orderItemId row.orderId t)
    (hb : batch (agentBatch row d now) 0 t = .ok (ns, u)) : (waySpec i).Admits ∅ ∅ t u := by
  refine complete_way hw hl (agentBatch_flips hb) (fun st hst => ?_) (fun st hst => ?_) hb
  · simp only [mem_append, mem_cons, not_mem_nil, or_false] at hst
    rcases hst with (rfl | rfl) | hst
    · exact update_off rfl
    · exact update_off rfl
    · exact activateGrants_orders _ _ st hst
  · rw [mem_singleton.mp hst]
    exact insert_off rfl

theorem idle_way (h : DeliveryIdle t u) : (waySpec i).Admits ∅ ∅ t u := by
  have hflips := h.noFlips
  have hc := h.core
  simp only [deliveryCore, Prod.mk.injEq] at hc
  refine way_admits hflips (onItsWay_same hw hc.1.1 fun hall r hr hi => ?_)
  exact (allDelivered_before hflips hall hr hi).resolve_right id

end

end Steps

theorem way_deliverySteps (i : Id) : DeliverySteps (waySpec i) Linked where
  link := fun s d j o _ => open_deliverySteps.link s d j o trivial
  stable := open_deliverySteps.stable
  idle _ _ _ hw _ h := idle_way hw h
  upgrade _ _ _ _ _ _ _ hw hl _ hb := upgrade_way hw hl hb
  agent _ _ _ _ _ _ hw hl _ hb := agent_way hw hl hb
  process _ _ _ _ _ _ _ hw hl hst _ hc hb := deliver_way hw hl hst hc hb
  start _ _ _ _ _ hw _ hst _ hb := startManual_way hw hst hb
  complete _ _ _ _ _ _ _ hw hl hst hc hb := completeManual_way hw hl hst hc hb

/-! ## The system -/

/-- In every run of delivery calls from a paid order with an open record, under `lastReadsCurrent`,
the order is completed in every state in which all its records are delivered. -/
theorem last_delivery_completes {i : Id} {s : Db} {w : World Db Site DomainError DeliveryReply}
    (hpaid : s.orderIs i (fun o => o.status == .paid) = true) (hopen : ¬AllDelivered s i)
    (hrun : Runs DeliveryCall.code lastReadsCurrent ⟨s, []⟩ w) (hall : AllDelivered w.db i) :
    w.db.orderIs i (fun o => o.status == .completed) = true := by
  have hcode : ∀ c s, (waySpec i).inv s → Prog.Ok (waySpec i) Prog.anyEnd (DeliveryCall.code c) ∅ s :=
    fun c s _ => (c.bare (way_deliverySteps i) s).ok
  obtain ⟨o, ho, hop⟩ := exist_iff.mp hpaid
  rw [Bool.and_eq_true, beq_iff_eq, beq_iff_eq] at hop
  have hinit : OnItsWay i s := by
    refine ⟨o, get?_eq_some_iff.mpr ⟨ho, hop.1⟩, Or.inl ?_, fun h => absurd h hopen⟩
    rw [hop.2]
    rfl
  obtain ⟨o', ho', -, hdone⟩ := (Runs.sound (waySpec i) hcode hrun (good_idle _ hinit)).1.1.order
  refine exist_iff.mpr ⟨o', get?_mem ho', ?_⟩
  rw [Bool.and_eq_true, beq_iff_eq, beq_iff_eq]
  exact ⟨get?_key ho', hdone hall⟩

/-! ## Two runs -/

def twoDownloadsDb : Db :=
  { paidOrderDb with
    items := .of
      [{ id := 1, orderId := 1, sellableItemId := 1, deliveryComponentId := 1
         deliveryComponentType := .download, quantity := 1 },
        { id := 2, orderId := 1, sellableItemId := 1, deliveryComponentId := 2
          deliveryComponentType := .download, quantity := 1 }]
    deliveries := .of
      [{ id := 1, orderItemId := 1, deliveryType := .download, status := .pending },
        { id := 2, orderItemId := 2, deliveryType := .download, status := .pending }] }

instance (s : Db) (i : Id) : Decidable (AllDelivered s i) :=
  inferInstanceAs (Decidable (∀ d ∈ s.deliveries.rows, _))

def inTurn : World Db Site DomainError DeliveryReply :=
  World.exec DeliveryCall.code lastReadsCurrent ⟨twoDownloadsDb, []⟩
    (oneByOne [.process 1 (offlineEnv 5), .process 2 (offlineEnv 6)] 5)

theorem last_delivery_completes_inTurn :
    inTurn.db.orderIs 1 (fun o => o.status == .completed) = true :=
  last_delivery_completes (s := twoDownloadsDb) (by decide) (by decide)
    (World.exec_runs _ _ _ _) (by decide)

/-- The first delivery has made its reads when the second runs from end to end. -/
def overtaken : World Db Site DomainError DeliveryReply :=
  World.exec DeliveryCall.code anySite ⟨twoDownloadsDb, []⟩
    ([Move.start (.process 1 (offlineEnv 5)), Move.run 0, Move.run 0, Move.run 0,
      Move.start (.process 2 (offlineEnv 6))] ++ List.replicate 5 (Move.run 1) ++ List.replicate 2 (Move.run 0))

/-- Both deliveries are through, and the order is left `fulfilling`. -/
theorem not_last_delivery_completes :
    ¬∀ (i : Id) (s : Db) (w : World Db Site DomainError DeliveryReply),
      s.orderIs i (fun o => o.status == .paid) = true → ¬AllDelivered s i →
        Runs DeliveryCall.code anySite ⟨s, []⟩ w → w.Quiescent → AllDelivered w.db i →
          w.db.orderIs i (fun o => o.status == .completed) = true := by
  intro h
  have hdone := h 1 twoDownloadsDb overtaken (by decide) (by decide)
    (World.exec_runs _ _ _ _) (by decide) (by decide)
  have hleft : overtaken.db.orderIs 1 (fun o => o.status == .completed) = false := by decide
  rw [hleft] at hdone
  cases hdone

end Gmshop
