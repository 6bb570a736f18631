import GmshopEdge.Fulfillment.DeliverBatch
import GmshopEdge.Lib.Alone

/-!
# The content of a stock delivery

A run of `processDelivery` reads the reserved entries of its item, converts them where the record has a SKU, and takes
their texts. For a delivery that waits with its full stock, secrets and a warehouse that answers, this goes through,
changes no other item's stock, and leaves the delivery ready for its batch (`stockContent_leaves`).
-/

namespace Gmshop

open List Sql Stmt Table

/-- The secrets are there, the contents decrypt, and the warehouse answers. -/
structure DeliveryEnv.Serves (e : DeliveryEnv) : Prop where
  secret : e.commerceSecret = true
  decrypts : e.decrypts = true
  token : e.warehouseToken = .ok ()
  converts : ∀ entryId, e.conversion entryId = .ok ()

/-- A pending stock delivery of the order, whose item holds its full stock: an entry for each of its quantity, and
none that was converted to another SKU. -/
structure StockWaits (orderId : Id) (s : Db) (d : Id) (r : DeliveryRecord) (i : ShopOrderItem) : Prop where
  record : s.deliveries.get? d = some r
  status : r.status = .pending
  type : r.deliveryType = .stock
  item : s.items.get? r.orderItemId = some i
  order : i.orderId = orderId
  full : (reservedEntries s i.id).length = i.quantity
  sku : ∀ k, r.redeemSku = some k → ∀ e ∈ reservedEntries s i.id, e.redeemSku = none ∨ e.redeemSku = some k
  noUpgrade : s.upgradeOrders.get? i.id = none
  noAccess : s.agentOrders.get? i.id = none

def waitingContext (r : DeliveryRecord) (i : ShopOrderItem) (o : ShopOrder) : DeliveryContext where
  id := r.id
  orderItemId := r.orderItemId
  orderId := o.id
  orderStatus := o.status
  orderVersion := o.version
  status := r.status
  deliveryType := r.deliveryType
  contentEncrypted := r.contentEncrypted
  quantity := i.quantity
  redeemSku := r.redeemSku

/-! ## The content of a run -/

/-- Reserved entries of the item have been converted to the SKU, and nothing else has changed. -/
structure Marks (item : Id) (sku : Nat) (s t : Db) : Prop where
  rest : t = Db.stockT.set s t.stock
  stock : ∃ f : StockEntry → StockEntry, t.stock.rows = s.stock.rows.map f ∧ ∀ e, f e = e ∨
    e.orderItemId = some item ∧ e.status = .reserved ∧ e.redeemSku = none ∧
      f e = { e with redeemSku := some sku, converted := true }

theorem Marks.refl (item : Id) (sku : Nat) (s : Db) : Marks item sku s s :=
  ⟨rfl, id, (map_id _).symm, fun _ => .inl rfl⟩

variable {s t u : Db} {sku : Nat} {item : Id}

theorem Marks.trans (h : Marks item sku s t) (h' : Marks item sku t u) : Marks item sku s u := by
  obtain ⟨hrest, f, hf, hmark⟩ := h
  obtain ⟨hrest', g, hg, hmark'⟩ := h'
  refine ⟨by rw [hrest', hrest]; rfl, g ∘ f, by rw [hg, hf, map_map], fun e => ?_⟩
  rcases hmark e with hsame | ⟨hitem, hstatus, hfree, hmarked⟩
  · rw [Function.comp_apply, hsame]
    exact hmark' e
  · rcases hmark' (f e) with hsame | ⟨-, -, hfree', -⟩
    · exact .inr ⟨hitem, hstatus, hfree, hsame.trans hmarked⟩
    · rw [hmarked] at hfree'
      cases hfree'

/-- An entry as it was read: it still stands reserved for the item, converted to no other SKU. -/
def Convertible (item : Id) (sku : Nat) (s : Db) (e : StockEntry) : Prop :=
  ∃ x ∈ s.stock.rows, x.id = e.id ∧ x.orderItemId = some item ∧ x.status = .reserved ∧
    (x.redeemSku = none ∨ x.redeemSku = some sku) ∧
      (e.redeemSku ≠ none → e.redeemSku = some sku ∧ x.redeemSku = some sku)

def Converted (sku : Nat) (s : Db) (e : StockEntry) : Prop :=
  ∃ x ∈ s.stock.rows, x.id = e.id ∧ x.redeemSku = some sku

section Conversion

variable {item : Id} {sku : Nat} {s t : Db} {e : StockEntry}

section

variable (h : Marks item sku s t)
include h

theorem Marks.convertible (he : Convertible item sku s e) : Convertible item sku t e := by
  obtain ⟨-, f, hf, hmark⟩ := h
  obtain ⟨x, hx, hid, hitem, hstatus, hsku, hread⟩ := he
  refine ⟨f x, hf ▸ mem_map_of_mem hx, ?_⟩
  rcases hmark x with hsame | ⟨-, -, -, hmarked⟩
  · rw [hsame]
    exact ⟨hid, hitem, hstatus, hsku, hread⟩
  · rw [hmarked]
    exact ⟨hid, hitem, hstatus, .inr rfl, fun hne => ⟨(hread hne).1, rfl⟩⟩

theorem Marks.converted (he : Converted sku s e) : Converted sku t e := by
  obtain ⟨-, f, hf, hmark⟩ := h
  obtain ⟨x, hx, hid, hsku⟩ := he
  refine ⟨f x, hf ▸ mem_map_of_mem hx, ?_⟩
  rcases hmark x with hsame | ⟨-, -, -, hmarked⟩
  · rw [hsame]
    exact ⟨hid, hsku⟩
  · rw [hmarked]
    exact ⟨hid, rfl⟩

theorem Marks.deliverable : t.itemDeliverable item = s.itemDeliverable item := by
  rw [h.rest]
  rfl

end

theorem convertReservedStock_leaves (he : Convertible item sku s e) (hopen : s.itemDeliverable item = true) :
    Prog.Leaves (fun r t => r = .ok () ∧ Marks item sku s t ∧ Converted sku t e)
      (convertReservedStock e item sku (.ok ())) s := by
  obtain ⟨x, hx, hid, hitem, hstatus, hsku, hread⟩ := he
  cases hentry : e.redeemSku with
  | some k =>
    obtain ⟨hk, hxk⟩ := hread (by rw [hentry]; nofun)
    have hsame : k = sku := Option.some.inj (hentry.symm.trans hk)
    have hpure : convertReservedStock e item sku (.ok ()) = pure () := by
      unfold convertReservedStock
      rw [hentry]
      exact if_neg (not_not.mpr hsame)
    rw [hpure]
    exact ⟨rfl, .refl item sku s, x, hx, hid, hxk⟩
  | none =>
    have hcode : convertReservedStock e item sku (.ok ()) = (do
        let changed ← Prog.commit (.convertReservedStock e.id) (convertBatch e.id item sku)
        if changed.headD 0 = 1 then pure ()
        else
          let replay ← Prog.query fun s => s.stock.exist fun x => x.id == e.id &&
            x.orderItemId == some item && x.status == .reserved && x.redeemSku == some sku
          if replay then pure ()
          else Prog.throw ⟨"redeem_delivery_state_changed", 409, "Inventory ownership changed"⟩) := by
      unfold convertReservedStock
      rw [hentry]
    rw [hcode]
    let meets (y : StockEntry) : Bool := y.orderItemId == some item && y.status == .reserved && y.redeemSku.isNone &&
      s.itemDeliverable item
    have hwhere : ∀ y : StockEntry, (y.id == e.id && y.orderItemId == some item && y.status == .reserved &&
        y.redeemSku.isNone && s.itemDeliverable item) = (KeyedRow.key y == e.id && meets y) := by
      intro y
      rw [Bool.and_assoc, Bool.and_assoc, Bool.and_assoc]
      show _ = (_ && (y.orderItemId == some item && y.status == .reserved && y.redeemSku.isNone &&
        s.itemDeliverable item))
      rw [Bool.and_assoc, Bool.and_assoc]
      rfl
    obtain ⟨ts, hrows, hs⟩ := update_total (T := Db.stockT) (s := s)
      (p := fun s y => y.id == e.id && y.orderItemId == some item && y.status == .reserved && y.redeemSku.isNone &&
        s.itemDeliverable item) (f := fun _ y => { y with redeemSku := some sku, converted := true })
      (fun a b => by split <;> split <;> rfl) (fun _ => rfl) 0
    have hmarks : Marks item sku s (Db.stockT.set s ts) := by
      refine ⟨rfl, _, hrows, fun y => ?_⟩
      split
      · rename_i hy
        rw [hwhere, Bool.and_eq_true, Bool.and_eq_true, Bool.and_eq_true, Bool.and_eq_true, beq_iff_eq, beq_iff_eq,
          Option.isNone_iff_eq_none] at hy
        exact .inr ⟨hy.2.1.1.1, eq_of_beq hy.2.1.1.2, hy.2.1.2, rfl⟩
      · exact .inl rfl
    have hbatch : batch (convertBatch e.id item sku) 0 s =
        .ok ([(Db.stockT.get s).count fun y => y.id == e.id && y.orderItemId == some item && y.status == .reserved &&
          y.redeemSku.isNone && s.itemDeliverable item], Db.stockT.set s ts) := by
      unfold convertBatch
      simp only [batch, hs, bind, Except.bind]
    refine Prog.Leaves.commit_run hbatch ?_
    have hx' : get? s.stock e.id = some x := get?_eq_some_iff.mpr ⟨hx, hid⟩
    rcases hsku with hfree | hdone
    · -- the entry was free, and is converted now
      have hmeets : meets x = true := by
        show (x.orderItemId == some item && x.status == .reserved && x.redeemSku.isNone && s.itemDeliverable item) = true
        rw [hitem, hstatus, hfree, hopen, beq_self_eq_true]
        rfl
      have hcount : (Db.stockT.get s).count (fun y => y.id == e.id && y.orderItemId == some item &&
          y.status == .reserved && y.redeemSku.isNone && s.itemDeliverable item) = 1 := by
        rw [show (fun y : StockEntry => y.id == e.id && y.orderItemId == some item && y.status == .reserved &&
          y.redeemSku.isNone && s.itemDeliverable item) = fun y => KeyedRow.key y == e.id && meets y from funext hwhere,
          count_key, show Db.stockT.get s = s.stock from rfl, hx', Option.filter_some_pos hmeets]
        rfl
      rw [hcount]
      refine ⟨rfl, hmarks, { x with redeemSku := some sku, converted := true }, ?_, hid, rfl⟩
      show _ ∈ ts.rows
      rw [hrows]
      refine mem_map.mpr ⟨x, hx, if_pos ?_⟩
      rw [hwhere, hmeets, Bool.and_true]
      exact beq_iff_eq.mpr hid
    · -- another run has converted it
      have hconverted : Converted sku (Db.stockT.set s ts) e := hmarks.converted ⟨x, hx, hid, hdone⟩
      split
      · exact ⟨rfl, hmarks, hconverted⟩
      · refine Prog.Leaves.query ?_
        have hreplay : (Db.stockT.set s ts).stock.exist (fun y => y.id == e.id && y.orderItemId == some item &&
            y.status == .reserved && y.redeemSku == some sku) = true := by
          obtain ⟨y, hy, hyid, hyitem, hystatus, -⟩ := hmarks.convertible
            (e := e) ⟨x, hx, hid, hitem, hstatus, .inr hdone, fun hne => absurd hentry hne⟩
          obtain ⟨z, hz, hzid, hzsku⟩ := hconverted
          obtain rfl := eq_of_key hy hz (hyid.trans hzid.symm)
          refine exist_iff.mpr ⟨y, hy, ?_⟩
          rw [hyid, hyitem, hystatus, hzsku, beq_self_eq_true, beq_self_eq_true, beq_self_eq_true, beq_self_eq_true]
          rfl
        rw [hreplay, if_pos rfl]
        exact ⟨rfl, hmarks, hconverted⟩

theorem convertEntries_leaves {answer : Id → Except DomainError Unit} (hanswer : ∀ id, answer id = .ok ())
    {es : List StockEntry} (hes : ∀ e ∈ es, Convertible item sku s e) (hopen : s.itemDeliverable item = true) :
    Prog.Leaves (fun r t => r = .ok () ∧ Marks item sku s t ∧ ∀ e ∈ es, Converted sku t e)
      (convertEntries item sku answer es) s := by
  induction es generalizing s with
  | nil => exact ⟨rfl, .refl item sku s, nofun⟩
  | cons e es ih =>
    unfold convertEntries
    rw [hanswer]
    refine Prog.Leaves.bind (convertReservedStock_leaves (hes e mem_cons_self) hopen)
      (fun _ t ht => ?_) fun _ _ ht => by cases ht.1
    obtain ⟨-, hmarks, hconverted⟩ := ht
    have hlater := ih (s := t) (fun x hx => hmarks.convertible (hes x (mem_cons_of_mem _ hx)))
      (hmarks.deliverable.trans hopen)
    refine hlater.mono fun r u ⟨hr, hmarks', hothers⟩ => ⟨hr, hmarks.trans hmarks', fun x hx => ?_⟩
    rcases mem_cons.mp hx with rfl | hx
    · exact hmarks'.converted hconverted
    · exact hothers x hx

end Conversion

/-! ## The stock of other items -/

def OtherStock (item : Id) (s t : Db) : Prop :=
  ∃ f : StockEntry → StockEntry, t.stock.rows = s.stock.rows.map f ∧
    ∀ e, f e = e ∨ e.orderItemId = some item ∧ (f e).orderItemId = some item

theorem OtherStock.trans (h : OtherStock item s t) (h' : OtherStock item t u) : OtherStock item s u := by
  obtain ⟨f, hf, hown⟩ := h
  obtain ⟨g, hg, hown'⟩ := h'
  refine ⟨g ∘ f, by rw [hg, hf, map_map], fun e => ?_⟩
  rw [Function.comp_apply]
  rcases hown' (f e) with hsame' | ⟨hitem', hown'⟩
  · rw [hsame']
    exact hown e
  · rcases hown e with hsame | ⟨hitem, -⟩
    · exact .inr ⟨hsame ▸ hitem', hown'⟩
    · exact .inr ⟨hitem, hown'⟩

theorem OtherStock.reserved {i : Id} (h : OtherStock item s t) (hi : i ≠ item) :
    reservedEntries t i = reservedEntries s i := by
  obtain ⟨f, hf, hown⟩ := h
  unfold reservedEntries
  rw [hf, filter_map]
  have hother : ∀ e : StockEntry, (e.orderItemId == some i && e.status == .reserved) = true → f e = e := by
    intro e he
    rw [Bool.and_eq_true, beq_iff_eq] at he
    refine (hown e).resolve_right fun h => hi ?_
    exact Option.some.inj (he.1.symm.trans h.1)
  have hfilter : s.stock.rows.filter ((fun e => e.orderItemId == some i && e.status == .reserved) ∘ f) =
      s.stock.rows.filter fun e => e.orderItemId == some i && e.status == .reserved := by
    refine filter_congr fun e _ => ?_
    rw [Function.comp_apply]
    rcases hown e with hsame | ⟨hitem, hitem'⟩
    · rw [hsame]
    · have hne : (some item == some i) = false := beq_false_of_ne fun h => hi (Option.some.inj h).symm
      rw [hitem, hitem', hne]
      rfl
  rw [hfilter, map_congr_left (g := id) fun e he => hother e (mem_filter.mp he).2, map_id]

theorem Marks.otherStock (h : Marks item sku s t) : OtherStock item s t := by
  obtain ⟨-, f, hf, hmark⟩ := h
  refine ⟨f, hf, fun e => (hmark e).imp_right fun ⟨hitem, _, _, hmarked⟩ => ⟨hitem, ?_⟩⟩
  rw [hmarked]
  exact hitem

section Content

variable {orderId d : Id} {s : Db} {r : DeliveryRecord} {i : ShopOrderItem} {o : ShopOrder} {e : DeliveryEnv}

section

variable (h : StockWaits orderId s d r i)
include h

theorem StockWaits.itemId : i.id = r.orderItemId := get?_key h.item

theorem StockWaits.context (ho : s.orders.get? orderId = some o) :
    deliveryContext s d = some (waitingContext r i o) := by
  unfold deliveryContext
  rw [h.record, Option.bind_eq_bind, Option.bind_some, h.item, Option.bind_eq_bind, Option.bind_some, h.order, ho]
  rfl

theorem StockWaits.deliverable (ho : s.orders.get? orderId = some o) (hopen : o.status.deliverable = true) :
    s.itemDeliverable r.orderItemId = true := by
  refine exist_iff.mpr ⟨i, get?_mem h.item, ?_⟩
  rw [Bool.and_eq_true, beq_iff_eq]
  exact ⟨h.itemId, orderIs_iff.mpr ⟨o, h.order ▸ ho, hopen⟩⟩

end

theorem mem_reservedEntries {x : StockEntry} : x ∈ reservedEntries s item ↔
    x ∈ s.stock.rows ∧ x.orderItemId = some item ∧ x.status = .reserved := by
  unfold reservedEntries
  rw [mem_insertionSort, mem_filter, Bool.and_eq_true, beq_iff_eq, beq_iff_eq]

theorem StockWaits.redeemReady {k : Nat} (h : StockWaits orderId s d r i) (hk : r.redeemSku = some k)
    (hmarks : Marks i.id k s t) (hall : ∀ x ∈ reservedEntries s i.id, Converted k t x) :
    Gmshop.redeemReady t r = true := by
  obtain ⟨hrest, f, hf, hmark⟩ := hmarks
  have hkept : ∀ x, ((f x).orderItemId == some i.id && (f x).status == .reserved) =
      (x.orderItemId == some i.id && x.status == .reserved) := by
    intro x
    rcases hmark x with hsame | ⟨-, -, -, hmarked⟩
    · rw [hsame]
    · rw [hmarked]
  have hlength : t.stock.count (fun x => x.orderItemId == some i.id && x.status == .reserved) = i.quantity := by
    rw [count_eq_of_map hf fun x _ => hkept x, ← h.full]
    unfold reservedEntries
    rw [length_insertionSort]
    exact countP_eq_length_filter
  refine exist_iff.mpr ⟨i, ?_, ?_⟩
  · rw [hrest]
    exact get?_mem h.item
  rw [Bool.and_eq_true, beq_iff_eq, beq_iff_eq]
  refine ⟨h.itemId, ?_⟩
  rw [← hlength, ← h.itemId]
  refine countP_congr fun x hx => ?_
  simp only [Bool.and_eq_true, beq_iff_eq]
  constructor
  · exact fun hx => hx.1.1
  · intro hreserved
    -- the entry is one that was read
    rw [hf] at hx
    obtain ⟨y, hy, rfl⟩ := mem_map.mp hx
    have hkeep := hkept y
    rw [hreserved.1, hreserved.2, beq_self_eq_true, beq_self_eq_true, Bool.and_self, eq_comm, Bool.and_eq_true,
      beq_iff_eq, beq_iff_eq] at hkeep
    obtain ⟨z, hz, hzid, hzsku⟩ := hall y ((mem_reservedEntries).mpr ⟨hy, hkeep⟩)
    have hid : (f y).id = y.id := by
      rcases hmark y with hsame | ⟨-, -, -, hmarked⟩
      · rw [hsame]
      · rw [hmarked]
    have hsame : z = f y := eq_of_key hz (hf ▸ mem_map_of_mem hy) (hzid.trans hid.symm)
    rw [hsame] at hzsku
    exact ⟨⟨hreserved, hzsku.trans hk.symm⟩, by rw [hzsku]; rfl⟩

theorem stockContent_leaves (h : StockWaits orderId s d r i) (ho : s.orders.get? orderId = some o)
    (hopen : o.status.deliverable = true) (he : e.Serves) :
    Prog.Leaves (fun a t => (∃ content, a = .ok content) ∧ t = Db.stockT.set s t.stock ∧ OtherStock i.id s t ∧
      (r.redeemSku.isNone || redeemReady t r) = true) (stockContent (waitingContext r i o) e) s := by
  unfold stockContent
  rw [if_pos he.secret]
  refine Prog.Leaves.query ?_
  have hread : reservedEntries s (waitingContext r i o).orderItemId = reservedEntries s i.id := by
    rw [h.itemId]
    rfl
  rw [hread, if_neg (show ¬(reservedEntries s i.id).length ≠ (waitingContext r i o).quantity from not_not.mpr h.full)]
  cases hk : r.redeemSku with
  | none =>
    rw [show (waitingContext r i o).redeemSku = none from hk]
    dsimp only
    rw [if_pos he.decrypts]
    exact ⟨⟨_, rfl⟩, rfl, ⟨id, (map_id _).symm, fun _ => .inl rfl⟩, rfl⟩
  | some k =>
    rw [show (waitingContext r i o).redeemSku = some k from hk, he.token]
    dsimp only
    have hconvertible : ∀ x ∈ reservedEntries s i.id, Convertible r.orderItemId k s x := by
      intro x hx
      obtain ⟨hmem, hitem, hstatus⟩ := (mem_reservedEntries).mp hx
      refine ⟨x, hmem, rfl, h.itemId ▸ hitem, hstatus, h.sku k hk x hx, fun hne => ?_⟩
      have hsku := (h.sku k hk x hx).resolve_left hne
      exact ⟨hsku, hsku⟩
    have hloop := convertEntries_leaves he.converts hconvertible (h.deliverable ho hopen)
    refine Prog.Leaves.bind (M := fun a t => a = .ok () ∧ Marks i.id k s t ∧
      ∀ x ∈ reservedEntries s i.id, Converted k t x) ?_ (fun _ t ht => ?_) fun _ _ ht => by cases ht.1
    · unfold recordingFailure
      refine Prog.Leaves.tryCatch (M := fun a t => a = .ok () ∧ Marks r.orderItemId k s t ∧
        ∀ x ∈ reservedEntries s i.id, Converted k t x) hloop (fun _ _ ht => ?_) (fun _ ht => by cases ht.1)
        fun _ _ _ ht => by cases ht.1
      rw [h.itemId]
      exact ⟨ht.1, ht.2.1, h.itemId ▸ ht.2.2⟩
    · exact ⟨⟨_, rfl⟩, ht.2.1.rest, ht.2.1.otherStock, h.redeemReady hk ht.2.1 ht.2.2⟩

end Content

end Gmshop
