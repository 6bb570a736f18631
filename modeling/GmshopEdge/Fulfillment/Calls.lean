import GmshopEdge.Fulfillment.Process

/-!
# The steps of the delivery calls

A delivery call takes leases, records failures, converts stock (`DeliveryIdle`: nothing becomes
delivered and no order moves) and makes one of five batches that matter. `DeliverySteps` is what a
system has to show about those; then every delivery call is in order in it.
-/

namespace Gmshop

open List Sql Stmt Prog Table Bool Bare

/-! ## Idle steps -/

def deliveryCore (s : Db) :=
  ((s.orders, s.items, s.events, s.refunds, s.attempts, s.channels), s.grants, s.entitlements,
    s.sellableItems, s.stockReceipts)

structure DeliveryIdleRow (d d' : DeliveryRecord) : Prop where
  id : d'.id = d.id
  item : d'.orderItemId = d.orderItemId
  content : d'.contentEncrypted = d.contentEncrypted
  request : d'.requestKey = d.requestKey
  delivered : d'.status = .delivered ↔ d.status = .delivered

structure StockIdleRow (e e' : StockEntry) : Prop where
  id : e'.id = e.id
  sellable : e'.sellableItemId = e.sellableItemId
  item : e'.orderItemId = e.orderItemId
  status : e'.status = e.status

structure DeliveryIdle (s s' : Db) : Prop where
  core : deliveryCore s' = deliveryCore s
  deliveries : ∃ f, (∀ d, DeliveryIdleRow d (f d)) ∧ s'.deliveries.rows = s.deliveries.rows.map f
  stock : ∃ f, (∀ e, StockIdleRow e (f e)) ∧ s'.stock.rows = s.stock.rows.map f

theorem DeliveryIdleRow.refl (d : DeliveryRecord) : DeliveryIdleRow d d :=
  ⟨rfl, rfl, rfl, rfl, Iff.rfl⟩

theorem DeliveryIdleRow.trans {a b c : DeliveryRecord} (h : DeliveryIdleRow a b)
    (h' : DeliveryIdleRow b c) : DeliveryIdleRow a c :=
  ⟨h'.id.trans h.id, h'.item.trans h.item, h'.content.trans h.content, h'.request.trans h.request,
    h'.delivered.trans h.delivered⟩

theorem StockIdleRow.refl (e : StockEntry) : StockIdleRow e e := ⟨rfl, rfl, rfl, rfl⟩

theorem StockIdleRow.trans {a b c : StockEntry} (h : StockIdleRow a b) (h' : StockIdleRow b c) : StockIdleRow a c :=
  ⟨h'.id.trans h.id, h'.sellable.trans h.sellable, h'.item.trans h.item, h'.status.trans h.status⟩

variable {s s' : Db} {sts : List (Stmt Db)} {x : Site} {row : UpgradeRow} {d : Id} {α : Type}
  {content : Option DeliveryContent} {c : DeliveryContext}

theorem DeliveryIdle.of_eq (hc : deliveryCore s' = deliveryCore s) (hd : s'.deliveries = s.deliveries)
    (hs : s'.stock = s.stock) : DeliveryIdle s s' :=
  ⟨hc, ⟨id, DeliveryIdleRow.refl, by rw [hd, map_id]⟩, ⟨id, StockIdleRow.refl, by rw [hs, map_id]⟩⟩

theorem DeliveryIdle.refl (s : Db) : DeliveryIdle s s := .of_eq rfl rfl rfl

theorem DeliveryIdle.trans {a b c : Db} (h : DeliveryIdle a b) (h' : DeliveryIdle b c) : DeliveryIdle a c := by
  obtain ⟨f, hf, hfr⟩ := h.deliveries
  obtain ⟨g, hg, hgr⟩ := h'.deliveries
  obtain ⟨f', hf', hfr'⟩ := h.stock
  obtain ⟨g', hg', hgr'⟩ := h'.stock
  exact ⟨h'.core.trans h.core, ⟨g ∘ f, fun d => (hf d).trans (hg (f d)), by rw [hgr, hfr, map_map]⟩,
    ⟨g' ∘ f', fun e => (hf' e).trans (hg' (f' e)), by rw [hgr', hfr', map_map]⟩⟩

theorem batch_deliveryIdle (h : ∀ st ∈ sts, Within DeliveryIdle st) {c : Nat} {ns : List Nat}
    (hb : batch sts c s = .ok (ns, s')) : DeliveryIdle s s' :=
  batch_within DeliveryIdle.refl (fun _ _ _ => DeliveryIdle.trans) h hb

theorem keeps_idle {st : Stmt Db}
    (h : Keeps (fun s => (deliveryCore s, s.deliveries, s.stock)) st) : Within DeliveryIdle st := by
  intro c s n s' hs
  have hk := h c s n s' hs
  simp only [Prod.mk.injEq] at hk
  exact .of_eq hk.1 hk.2.1 hk.2.2

theorem updateDeliveries_idle {p : Db → DeliveryRecord → Bool} {f : DeliveryRecord → DeliveryRecord}
    (hf : ∀ s d, p s d = true → DeliveryIdleRow d (f d)) :
    Within DeliveryIdle (update Db.deliveriesT p (fun _ => f)) := by
  intro c s n s' h
  obtain ⟨-, t, ht, rfl⟩ := update_ok h
  refine ⟨rfl, ⟨fun d => if p s d then f d else d, fun d => ?_, ht⟩, ⟨id, StockIdleRow.refl, (map_id _).symm⟩⟩
  dsimp only
  split
  · next hp => exact hf s d hp
  · exact DeliveryIdleRow.refl d

theorem updateStock_idle {p : Db → StockEntry → Bool} {f : StockEntry → StockEntry}
    (hf : ∀ e, StockIdleRow e (f e)) : Within DeliveryIdle (update Db.stockT p (fun _ => f)) := by
  intro c s n s' h
  obtain ⟨-, t, ht, rfl⟩ := update_ok h
  refine ⟨rfl, ⟨id, DeliveryIdleRow.refl, (map_id _).symm⟩, ⟨fun e => if p s e then f e else e, fun e => ?_, ht⟩⟩
  dsimp only
  split
  · exact hf e
  · exact StockIdleRow.refl e

theorem updateUpgrades_idle (p : Db → GptUpgradeOrder → Bool) (f : Db → GptUpgradeOrder → GptUpgradeOrder) :
    Within DeliveryIdle (update Db.upgradeOrdersT p f) :=
  keeps_idle (update_off rfl)

theorem updateAgents_idle (p : Db → AgentAccessOrder → Bool) (f : Db → AgentAccessOrder → AgentAccessOrder) :
    Within DeliveryIdle (update Db.agentOrdersT p f) :=
  keeps_idle (update_off rfl)

theorem settleDeliveryRequest_idle (deliveryId : Id) : Within DeliveryIdle (settleDeliveryRequest deliveryId) :=
  keeps_idle (update_off rfl)

theorem queued_ne_delivered {st : DeliveryStatus} (h : st.queued = true) : st ≠ .delivered := by
  intro hd
  subst hd
  cases h

/-! ## What a system has to show -/

/-- What a delivery run knows of the content it writes. The order of the record could be delivered when
the run began; of stock the content is that of the entries it then read as reserved, else it is the
record's own. -/
def ContentRead {τ : Type} (S : Spec Db Site τ) (c : DeliveryContext)
    (content : Option DeliveryContent) (t : Db) : Prop :=
  ∃ s s', S.inv s ∧ deliveryContext s c.id = some c ∧ S.rely ∅ s s' ∧ S.inv s' ∧ S.rely ∅ s' t ∧
    ((c.deliveryType = .stock ∧ ∃ cs, content = some (.codes cs) ∧
        cs.map (·.entryId) = (reservedEntries s' c.orderItemId).map (·.id)) ∨
      content = c.contentEncrypted)

/-- The obligations of a system on the delivery batches. `Link d i o` says that record `d` belongs to
item `i` and item `i` to order `o`. -/
structure DeliverySteps {τ : Type} (S : Spec Db Site τ) (Link : Id → Id → Id → Db → Prop) :
    Prop where
  link : ∀ s d i o, S.inv s → s.deliveries.get? d.id = some d → s.items.get? d.orderItemId = some i →
    s.orders.get? i.orderId = some o → Link d.id i.id o.id s
  stable : ∀ d i o s t, Link d i o s → S.rely ∅ s t → Link d i o t
  idle : ∀ x t u, S.inv t → S.cond x t → DeliveryIdle t u → S.Admits ∅ ∅ t u
  upgrade : ∀ row d content now t u ns, S.inv t → Link d row.orderItemId row.orderId t →
    S.cond (.upgradeDelivery d row.orderItemId row.orderId) t →
    batch (upgradeBatch row d content now) 0 t = .ok (ns, u) → S.Admits ∅ ∅ t u
  agent : ∀ row d now t u ns, S.inv t → Link d row.orderItemId row.orderId t →
    S.cond (.agentDelivery d row.orderItemId row.orderId) t →
    batch (agentBatch row d now) 0 t = .ok (ns, u) → S.Admits ∅ ∅ t u
  process : ∀ c content n now t u ns, S.inv t → Link c.id c.orderItemId c.orderId t →
    c.orderStatus.deliverable = true → ContentRead S c content t →
    S.cond (.processDelivery c.toDeliveryRef n) t →
    batch (deliverBatch c content n now) 0 t = .ok (ns, u) → S.Admits ∅ ∅ t u
  start : ∀ d now t u ns, S.inv t → Link d.id d.orderItemId d.orderId t →
    d.orderStatus.deliverable = true → S.cond (.startManualDelivery d) t →
    batch (startManualBatch d now) 0 t = .ok (ns, u) → S.Admits ∅ ∅ t u
  complete : ∀ d content n now t u ns, S.inv t → Link d.id d.orderItemId d.orderId t →
    d.orderStatus.deliverable = true → S.cond (.completeManualDelivery d n) t →
    batch (completeManualBatch d content n now) 0 t = .ok (ns, u) → S.Admits ∅ ∅ t u

section Calls

variable {τ : Type} {S : Spec Db Site τ} {Link : Id → Id → Id → Db → Prop} {s : Db}

theorem DeliverySteps.commitIdle (h : DeliverySteps S Link) (hidle : ∀ st ∈ sts, Within DeliveryIdle st) :
    Bare S (Prog.commit x sts : Call Site (List Nat)) s :=
  commit fun t _ hi hc _ u hb => h.idle x t u hi hc (batch_deliveryIdle hidle hb)

/-! ### Upgrades -/

section

variable (h : DeliverySteps S Link)
include h

theorem recordUpgradeFailure_bare (row : UpgradeRow) (d : Id) (code : String) (now : Time) :
    Bare S (recordUpgradeFailure row d code now) s := by
  refine bind (h.commitIdle ?_) fun _ _ _ => ?_
  · intro st hst
    refine each_two ?_ ?_ _ hst
    · exact updateUpgrades_idle _ _
    · refine updateDeliveries_idle fun s r hr => ⟨rfl, rfl, rfl, rfl, ?_⟩
      have hq := queued_ne_delivered (and_eq_true_iff.mp hr).2
      constructor
      · intro hd
        split at hd <;> cases hd
      · exact fun hd => absurd hd hq
  · split
    · exact done _
    · exact throw _

theorem deliverUpgrade_bare {e : UpgradeEnv} (hl : Link d row.orderItemId row.orderId s) :
    Bare S (deliverUpgrade row d e) s := by
  refine tryCatch ?_ fun _ _ _ => recordUpgradeFailure_bare h _ _ _ _
  split
  · exact throw _
  · refine bind (commit fun t ht hi hc ns u hb => ?_) fun _ _ _ =>
      query fun _ _ _ => done _
    exact h.upgrade _ _ _ _ t u ns hi (h.stable _ _ _ _ _ hl ht) hc hb

theorem DeliverySteps.linked (hi : S.inv s) {r : DeliveryRecord} {i : ShopOrderItem} {o : ShopOrder}
    (hd : s.deliveries.get? d = some r) (hit : s.items.get? r.orderItemId = some i)
    (ho : s.orders.get? i.orderId = some o) : Link d r.orderItemId o.id s := by
  have hid : r.id = d := get?_key hd
  have hiid : i.id = r.orderItemId := get?_key hit
  have := h.link s r i o hi (by rw [hid]; exact hd) hit ho
  rwa [hid, hiid] at this

theorem upgradeRow_link (hi : S.inv s) (hrow : upgradeRow s d = some row) : Link d row.orderItemId row.orderId s := by
  simp only [upgradeRow, Option.bind_eq_bind, Option.bind_eq_some_iff, Option.some.injEq] at hrow
  obtain ⟨r, hd, v, hv, i, hit, o, ho, rfl⟩ := hrow
  have hvid : v.orderItemId = r.orderItemId := get?_key hv
  show Link d v.orderItemId o.id s
  rw [hvid]
  exact h.linked hi hd hit ho

theorem processUpgradeDelivery_bare (d : Id) (e : UpgradeEnv) : Bare S (processUpgradeDelivery d e) s := by
  refine query fun s1 _ hi1 => ?_
  cases hrow : upgradeRow s1 d with
  | none => exact done _
  | some row =>
    have hl := upgradeRow_link h hi1 hrow
    dsimp only
    split
    · exact done _
    split
    · exact done _
    split
    · exact done _
    split
    · exact bind (recordUpgradeFailure_bare h _ _ _ _) fun _ _ _ => done _
    refine bind (h.commitIdle ?_) fun lease s2 h2 => ?_
    · intro st hst
      rw [mem_singleton.mp hst]
      exact updateUpgrades_idle _ _
    · split
      · exact done _
      · exact bind (deliverUpgrade_bare h (h.stable _ _ _ _ _ hl h2)) fun _ _ _ => done _

end

/-! ### Agent access -/

section

variable (h : DeliverySteps S Link)
include h

theorem agentRow_link (hi : S.inv s) {row : AgentRow} (hrow : agentRow s d = some row) :
    Link d row.orderItemId row.orderId s := by
  simp only [agentRow, Option.bind_eq_bind, Option.bind_eq_some_iff, Option.some.injEq] at hrow
  obtain ⟨r, hd, v, hv, i, hit, o, ho, rfl⟩ := hrow
  have hvid : v.orderItemId = r.orderItemId := get?_key hv
  show Link d v.orderItemId o.id s
  rw [hvid]
  exact h.linked hi hd hit ho

theorem DeliverySteps.commitAgent {p : Db → AgentAccessOrder → Bool}
    {f : Db → AgentAccessOrder → AgentAccessOrder} :
    Bare S (Prog.commit x [update Db.agentOrdersT p f] : Call Site (List Nat)) s :=
  h.commitIdle fun st hst => by
    rw [mem_singleton.mp hst]
    exact updateAgents_idle _ _

theorem clearPassword_bare (i : Id) (valid : Bool) : Bare S (clearPassword i valid) s := by
  unfold clearPassword
  split
  · exact done _
  · exact bind h.commitAgent fun _ _ _ => done _

theorem deliverAgentAccess_bare {row : AgentRow} {e : AgentEnv} (hl : Link d row.orderItemId row.orderId s) :
    Bare S (deliverAgentAccess row d e) s := by
  unfold deliverAgentAccess
  refine tryCatch ?_ fun _ _ _ => bind h.commitAgent fun _ _ _ => throw _
  split
  swap
  · exact throw _
  refine bind h.commitAgent fun _ s1 h1 => query fun s2 h2 _ => ?_
  have hl2 := h.stable _ _ _ _ _ (h.stable _ _ _ _ _ hl h1) h2
  cases e.provision with
  | none => exact throw _
  | some answer =>
    dsimp only
    split
    · exact throw _
    split
    · exact throw _
    refine bind (clearPassword_bare h _ _) fun _ s3 h3 => bind
      (commit fun t ht hi hc ns u hb => ?_) fun _ _ _ => query fun _ _ _ => done _
    have hl3 := h.stable _ _ _ _ _ (h.stable _ _ _ _ _ hl2 h3) ht
    exact h.agent _ _ _ t u ns hi hl3 hc hb

theorem revokeAgentAccess_bare (row : AgentRow) (e : AgentEnv) : Bare S (revokeAgentAccess row e) s := by
  unfold revokeAgentAccess
  split
  · exact bind h.commitAgent fun _ _ _ => done _
  · exact throw _

theorem processAgentDelivery_bare (d : Id) (e : AgentEnv) : Bare S (processAgentDelivery d e) s := by
  unfold processAgentDelivery
  refine query fun s1 _ hi1 => ?_
  cases hrow : agentRow s1 d with
  | none => exact done _
  | some row =>
    have hl := agentRow_link h hi1 hrow
    dsimp only
    split
    · exact done _
    split
    · exact done _
    split
    · exact bind (revokeAgentAccess_bare h _ _) fun _ _ _ => done _
    split
    · exact done _
    split
    · exact done _
    split
    · exact throw _
    split
    · exact done _
    refine bind h.commitAgent fun lease s2 h2 => ?_
    split
    · exact done _
    · exact bind (deliverAgentAccess_bare h (h.stable _ _ _ _ _ hl h2)) fun _ _ _ => done _

end

/-! ### Orders -/

section

variable (h : DeliverySteps S Link)
include h

theorem recordOwnedDeliveryFailure_bare (d : Id) (code : String) : Bare S (recordOwnedDeliveryFailure d code) s := by
  unfold recordOwnedDeliveryFailure
  refine bind (h.commitIdle fun st hst => ?_) fun _ _ _ => done _
  rw [mem_singleton.mp hst]
  exact updateDeliveries_idle fun _ r _ => ⟨rfl, rfl, rfl, rfl, Iff.rfl⟩

theorem recordingFailure_bare {code : String} {p : Call Site α} (hp : Bare S p s) :
    Bare S (recordingFailure d code p) s :=
  tryCatch hp fun _ _ _ => bind (recordOwnedDeliveryFailure_bare h _ _) fun _ _ _ =>
    fail _

theorem convertReservedStock_bare (x : StockEntry) (item : Id) (sku : Nat) (answer : Except DomainError Unit) :
    Bare S (convertReservedStock x item sku answer) s := by
  unfold convertReservedStock
  split
  · split
    · exact throw _
    · split
      · exact done _
      · exact throw _
  · exact throw _
  · refine bind (h.commitIdle fun st hst => ?_) fun changed _ _ => ?_
    · rw [mem_singleton.mp hst]
      exact updateStock_idle fun _ => ⟨rfl, rfl, rfl, rfl⟩
    · split
      · exact done _
      · refine query fun t _ _ => ?_
        split
        · exact done _
        · exact throw _

theorem convertEntries_bare (item : Id) (sku : Nat) (answer : Id → Except DomainError Unit)
    (es : List StockEntry) : Bare S (convertEntries item sku answer es) s := by
  induction es generalizing s with
  | nil => exact done _
  | cons e es ih => exact bind (convertReservedStock_bare h _ _ _ _) fun _ _ _ => ih

end

theorem ContentRead.later {t : Db} (h : ContentRead S c content s) (hr : S.rely ∅ s t) :
    ContentRead S c content t := by
  obtain ⟨r, r', hi, hc, hrr, hi', hrs, hcontent⟩ := h
  exact ⟨r, r', hi, hc, hrr, hi', S.rely_trans _ _ _ _ hrs hr, hcontent⟩

section

variable (h : DeliverySteps S Link)
include h

theorem stockContent_bind {e : DeliveryEnv} {k : Option DeliveryContent → Call Site α} (hi : S.inv s)
    (hc : deliveryContext s c.id = some c) (hstock : c.deliveryType = .stock)
    (hk : ∀ t content, S.rely ∅ s t → ContentRead S c content t → Bare S (k content) t) :
    Bare S (stockContent c e >>= k) s := by
  unfold stockContent
  split
  swap
  · exact throw _
  rw [bind_assoc]
  refine query fun t ht hit => ?_
  have hread : ∀ cs : List StockCode, cs.map (·.entryId) = (reservedEntries t c.orderItemId).map (·.id) →
      ContentRead S c (some (.codes cs)) t := fun cs hcs =>
    ⟨s, t, hi, hc, ht, hit, S.rely_refl _ _, Or.inl ⟨hstock, cs, rfl, hcs⟩⟩
  split
  · exact throw _
  split
  · rw [bind_assoc]
    refine bind (recordingFailure_bare h ?_) fun _ u hu => ?_
    · split
      · exact throw _
      · exact convertEntries_bare h _ _ _ _
    · refine hk u _ (S.rely_trans _ _ _ _ ht hu) ((hread _ ?_).later hu)
      rw [map_map]
      refine map_congr_left fun x _ => ?_
      unfold convertedCode
      dsimp only [Function.comp_apply]
      split <;> rfl
  · split
    · exact hk t _ ht (hread _ (by rw [map_map]; rfl))
    · exact throw _

theorem closeUndeliverableDelivery_bare (d : Id) : Bare S (closeUndeliverableDelivery d) s := by
  unfold closeUndeliverableDelivery
  refine bind (h.commitIdle fun st hst => ?_) fun _ _ _ => done _
  refine each_two ?_ ?_ _ hst
  · refine updateDeliveries_idle fun s r hr => ⟨rfl, rfl, rfl, rfl, ?_⟩
    have hq := queued_ne_delivered (and_eq_true_iff.mp hr).2
    exact ⟨fun hd => (by cases hd), fun hd => absurd hd hq⟩
  · exact settleDeliveryRequest_idle d

theorem finishDelivery_bare {now : Time} (hl : Link c.id c.orderItemId c.orderId s)
    (hst : c.orderStatus.deliverable = true) (hread : ContentRead S c content s) :
    Bare S (finishDelivery c content now) s := by
  unfold finishDelivery
  refine query fun s1 h1 _ => bind ?_ fun results _ _ => ?_
  · have hcommit : Bare S (Prog.commit (.processDelivery c.toDeliveryRef
        (remainingDeliveries s1 c.orderId c.id)) (deliverBatch c content
        (remainingDeliveries s1 c.orderId c.id) now) : Call Site (List Nat)) s1 := by
      refine commit fun t ht hi hc ns u hb => ?_
      exact h.process _ _ _ _ t u ns hi (h.stable _ _ _ _ _ (h.stable _ _ _ _ _ hl h1) ht) hst
        ((hread.later h1).later ht) hc hb
    unfold commitDelivery
    dsimp only
    split
    · exact recordingFailure_bare h hcommit
    · exact hcommit
  · split
    · exact done _
    · exact done _

theorem deliveryContext_link (hi : S.inv s) (hc : deliveryContext s d = some c) :
    Link c.id c.orderItemId c.orderId s := by
  simp only [deliveryContext, Option.bind_eq_bind, Option.bind_eq_some_iff, Option.some.injEq] at hc
  obtain ⟨r, hd, i, hit, o, ho, rfl⟩ := hc
  have hid : r.id = d := get?_key hd
  show Link r.id r.orderItemId o.id s
  rw [hid]
  exact h.linked hi hd hit ho

end

theorem deliveryContext_id (hc : deliveryContext s d = some c) : c.id = d := by
  simp only [deliveryContext, Option.bind_eq_bind, Option.bind_eq_some_iff, Option.some.injEq] at hc
  obtain ⟨r, hd, i, hit, o, ho, rfl⟩ := hc
  exact get?_key hd

theorem processDelivery_bare (h : DeliverySteps S Link) (d : Id) (e : DeliveryEnv) :
    Bare S (processDelivery d e) s := by
  unfold processDelivery
  refine bind (processUpgradeDelivery_bare h _ _) fun upgrade s1 _ => ?_
  cases upgrade with
  | some reply => exact done _
  | none =>
    refine bind (processAgentDelivery_bare h _ _) fun agent s2 _ => ?_
    cases agent with
    | some reply => exact done _
    | none =>
      refine query fun s3 _ hi3 => ?_
      cases hc : deliveryContext s3 d with
      | none => exact throw _
      | some c =>
        have hl := deliveryContext_link h hi3 hc
        have hread : deliveryContext s3 c.id = some c := deliveryContext_id hc ▸ hc
        dsimp only
        split
        · exact done _
        split
        · exact throw _
        split
        · split
          · exact closeUndeliverableDelivery_bare h _
          · exact throw _
        next hst =>
        rw [not_eq_false] at hst
        split
        · next hstock =>
          exact stockContent_bind h hi3 hread hstock fun s4 content h4 hcontent =>
            finishDelivery_bare h (h.stable _ _ _ _ _ hl h4) hst hcontent
        · exact finishDelivery_bare h hl hst ⟨s3, s3, hi3, hread, S.rely_refl _ _, hi3, S.rely_refl _ _, Or.inr rfl⟩

/-! ### Manual deliveries and the retry -/

section

variable (h : DeliverySteps S Link)
include h

theorem manualContext_link (hi : S.inv s) {source : FulfillmentSource}
    (hc : manualDeliveryContext s d = some (c, source)) : Link c.id c.orderItemId c.orderId s := by
  simp only [manualDeliveryContext, Option.bind_eq_bind, Option.bind_eq_some_iff,
    Option.some.injEq, Prod.mk.injEq] at hc
  obtain ⟨c', hc', i, -, item, -, rfl, -⟩ := hc
  exact deliveryContext_link h hi hc'

theorem startManualDelivery_bare (d : Id) (now : Time) : Bare S (startManualDelivery d now) s := by
  unfold startManualDelivery
  refine query fun s1 _ hi1 => ?_
  cases hc : manualDeliveryContext s1 d with
  | none => exact throw _
  | some cs =>
    obtain ⟨c, source⟩ := cs
    have hl := manualContext_link h hi1 hc
    dsimp only
    split
    · exact throw _
    split
    · exact done _
    split
    · exact throw _
    split
    · exact throw _
    next hst =>
    rw [not_eq_false] at hst
    refine bind (commit fun t ht hi hcond ns u hb => ?_) fun results _ _ => ?_
    · exact h.start _ _ t u ns hi (h.stable _ _ _ _ _ hl ht) hst hcond hb
    · split
      · exact throw _
      · exact done _

theorem completeManualDelivery_bare (d : Id) (content : Option Nat) (secret : Bool) (now : Time) :
    Bare S (completeManualDelivery d content secret now) s := by
  unfold completeManualDelivery
  cases content with
  | none => exact throw _
  | some content =>
    refine query fun s1 _ hi1 => ?_
    cases hc : manualDeliveryContext s1 d with
    | none => exact throw _
    | some cs =>
      obtain ⟨c, source⟩ := cs
      have hl := manualContext_link h hi1 hc
      dsimp only
      split
      · exact done _
      split
      · exact throw _
      split
      · exact throw _
      split
      · exact throw _
      next hst =>
      rw [not_eq_false] at hst
      split
      · exact throw _
      refine query fun s2 h2 _ =>
        bind (commit fun t ht hi hcond ns u hb => ?_) fun results _ _ => ?_
      · exact h.complete _ _ _ _ t u ns hi (h.stable _ _ _ _ _ (h.stable _ _ _ _ _ hl h2) ht) hst hcond hb
      · split
        · exact done _
        · exact done _

theorem retryDelivery_bare (d : Id) (now : Time) : Bare S (retryDelivery d now) s := by
  unfold retryDelivery
  refine query fun s1 _ _ => ?_
  cases s1.deliveries.get? d with
  | none => exact throw _
  | some r =>
    dsimp only
    split
    · exact throw _
    refine bind (h.commitIdle fun st hst => ?_) fun _ _ _ => done _
    refine each_two ?_ ?_ _ hst
    · refine updateDeliveries_idle fun s x hx => ⟨rfl, rfl, rfl, rfl, ?_⟩
      simp only [and_eq_true, beq_iff_eq] at hx
      exact ⟨fun hd => (by cases hd), fun hd => (by rw [hx.2] at hd; cases hd)⟩
    · exact keeps_idle (insert_off rfl)

end

end Calls

end Gmshop
