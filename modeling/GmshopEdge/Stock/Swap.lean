import GmshopEdge.Lib.Guarantee
import GmshopEdge.Stock.Moves
import GmshopEdge.Lib.Checked

/-!
# Code swaps

`swapDeliveredCode` reads an order, the entry it holds and a free one, and then commits one batch whose
writes all ask for the receipt that its first statement inserts. The receipt asks again for the free
entry, the old entry, the delivered record and the item, but neither for the order's status nor for the
old entry being the only one (`swapCurrent`).
-/

namespace Gmshop

open List Sql Stmt Prog Table Each

/-! ## The property -/

def swapSettled (s : Db) (r : SwapRef) : Bool :=
  s.orderIs r.orderId fun o => o.status == .completed && decide (o.totalMinor ≤ o.paidMinor)

def takenEntry (r : SwapRef) (e : StockEntry) : StockEntry :=
  { e with status := .delivered, orderItemId := some r.orderItemId }

structure Swapped (r : SwapRef) (s t : Db) : Prop where
  settled : swapSettled s r = true
  item : s.itemOf r.orderId r.orderItemId = true
  entry : ∃ e d, s.stock.get? r.candidate.id = some e ∧ e.status = .available ∧
    e.sellableItemId = r.toComponentId ∧ deliveredEntries t r.orderItemId = [takenEntry r e] ∧
    t.deliveries.get? r.deliveryId = some d ∧ d.orderItemId = r.orderItemId ∧
    d.status = .delivered ∧ d.contentEncrypted = some (.codes [e.code])
  old : ∃ e, t.stock.get? r.oldEntryId = some e ∧ e.status = .disabled
  first : stockReceipt s .deliverySwap r.orderId r.receipt.requestRef = none
  recorded : (stockReceipt t .deliverySwap r.orderId r.receipt.requestRef).isSome = true

/-- The condition on the batch of a swap. Its receipt's id is new; and if the receipt is written, the
order is still completed and paid, the old entry is the only one delivered to the item, and the new one
holds the code that was read. -/
def swapCurrent (x : StockSite) (s : Db) : Prop :=
  match x with
  | .swapDeliveredCode r => swapWritten s r = false ∧ (swapGate s r = true →
      swapSettled s r = true ∧ (deliveredEntries s r.orderItemId).map (·.id) = [r.oldEntryId] ∧
      ∀ e ∈ s.stock.get? r.candidate.id, e.code = r.candidate.code)
  | _ => True

instance (x : StockSite) (s : Db) : Decidable (swapCurrent x s) := by
  casesm StockSite <;> dsimp only [swapCurrent] <;> infer_instance

/-! ## What the others see -/

/-- Entries stay entries of their item, and a disabled one stays disabled. -/
def EntriesKept (s t : Db) : Prop :=
  ∀ id e, s.stock.get? id = some e → ∃ e', t.stock.get? id = some e' ∧
    e'.sellableItemId = e.sellableItemId ∧ (e.status = .disabled → e'.status = .disabled)

structure SwapRely (s t : Db) : Prop where
  owners : OwnersKept s t
  entries : EntriesKept s t

variable {s t : Db} {f : StockEntry → StockEntry} {st : Stmt Db} {c orderNumber : Nat} {r : SwapRef}
  {ns : List Nat} {d : SingleDelivery} {e : StockEntry}

theorem EntriesKept.of_eq (h : t.stock = s.stock) : EntriesKept s t :=
  fun _ e he => ⟨e, by rw [h]; exact he, rfl, id⟩

theorem EntriesKept.trans {a b c : Db} (h : EntriesKept a b) (h' : EntriesKept b c) : EntriesKept a c := by
  intro id e he
  obtain ⟨f, hf, hs, hd⟩ := h id e he
  obtain ⟨g, hg, hs', hd'⟩ := h' id f hf
  exact ⟨g, hg, hs'.trans hs, fun hdis => hd' (hd hdis)⟩

theorem entries_mapped (h : t.stock.rows = s.stock.rows.map f) (hid : ∀ e, (f e).id = e.id)
    (hf : ∀ e, (f e).sellableItemId = e.sellableItemId ∧
      (e.status = .disabled → (f e).status = .disabled)) : EntriesKept s t := by
  intro id e he
  refine ⟨f e, ?_, hf e⟩
  rw [get?_map h hid, he]
  rfl

theorem SwapRely.refl (s : Db) : SwapRely s s := ⟨.refl s, .of_eq rfl⟩

theorem SwapRely.trans (a b c : Db) (h : SwapRely a b) (h' : SwapRely b c) : SwapRely a c :=
  ⟨h.owners.trans h'.owners, h.entries.trans h'.entries⟩

theorem updateStock_entriesKept {p : Db → StockEntry → Bool} (hid : ∀ e, (f e).id = e.id)
    (hs : ∀ e, (f e).sellableItemId = e.sellableItemId)
    (hp : ∀ s, ∀ e ∈ s.stock.rows, p s e = true → e.status ≠ .disabled) :
    Within EntriesKept (update Db.stockT p fun _ => f) := by
  intro c s n s' h id e he
  obtain ⟨-, t, ht, rfl⟩ := update_ok h
  refine ⟨if p s e then f e else e, ?_, ?_, fun hd => ?_⟩
  · have hget : t.get? id = (s.stock.get? id).map fun e => if p s e then f e else e := by
      refine get?_map ht (fun x => ?_) id
      split
      · exact hid x
      · rfl
    exact hget.trans (by rw [he]; rfl)
  · split
    · exact hs e
    · rfl
  · rw [if_neg fun hpe => hp s e (get?_mem he) hpe hd]
    exact hd

theorem keeps_entries (h : Keeps Db.stock st) : Within EntriesKept st :=
  fun c s n s' hs => .of_eq (h c s n s' hs)

theorem StoreStmt.entriesKept (h : StoreStmt st) : Within EntriesKept st := by
  cases h with
  | items g => exact keeps_entries (insert_off rfl)
  | delivery orderId i ids now => exact keeps_entries (insertDelivery_keeps fun _ _ => rfl)
  | records p f hf => exact keeps_entries (update_off rfl)
  | reserve i =>
    refine updateStock_entriesKept (fun _ => rfl) (fun _ => rfl) fun s e he hp hd => ?_
    rw [Bool.and_eq_true] at hp
    rw [firstAvailable_available he hp.1] at hd
    cases hd
  | reserveSale componentId itemId quantity =>
    refine updateStock_entriesKept (fun _ => rfl) (fun _ => rfl) fun s e he hp hd => ?_
    rw [firstAvailable_available he hp] at hd
    cases hd
  | release orderId =>
    refine updateStock_entriesKept (fun _ => rfl) (fun _ => rfl) fun s e he hp hd => ?_
    rw [Bool.and_eq_true, beq_iff_eq] at hp
    rw [hp.1] at hd
    cases hd

theorem store_swapRely (h : StoreStmt st ∨ Keeps storeCore st) : Within SwapRely st := by
  intro c s n s' hs
  refine ⟨(store_recordsIdle h c s n s' hs).owners, ?_⟩
  rcases h with h | h
  · exact h.entriesKept c s n s' hs
  · exact .of_eq (congrArg Prod.snd (h c s n s' hs))

theorem DeliveryMove.swapRely {C : Id → Option DeliveryContent → Prop} (h : DeliveryMove C s t) : SwapRely s t := by
  obtain ⟨f, hf, hrows⟩ := h.stock
  refine ⟨h.owners, entries_mapped hrows (fun e => (hf e).id) fun e => ⟨(hf e).sellable, fun hd => ?_⟩⟩
  rcases (hf e).status with hs | ⟨hr, -⟩
  · exact hs.trans hd
  · rw [hr] at hd
    cases hd

/-! ## The batch of a swap -/

def givenUpEntry (e : StockEntry) : StockEntry := { e with status := .disabled, orderItemId := none }

def swappedEntry (r : SwapRef) (e : StockEntry) : StockEntry :=
  if e.id = r.oldEntryId then givenUpEntry e
  else if e.id = r.candidate.id then takenEntry r e else e

def swappedRecord (r : SwapRef) (d : DeliveryRecord) : DeliveryRecord :=
  if d.id = r.deliveryId then
    { d with contentEncrypted := some (.codes [r.candidate.code]), redeemSku := r.candidate.redeemSku }
  else d

def swappedItem (r : SwapRef) (i : ShopOrderItem) : ShopOrderItem :=
  if i.id = r.orderItemId then { i with
      sellableItemId := r.toComponentId
      deliveryComponentId := if i.deliveryComponentId = r.fromComponentId then r.toComponentId
        else i.deliveryComponentId }
  else i

structure SwapWrites (r : SwapRef) (s t : Db) : Prop where
  gate : swapGate s r = true
  receipts : t.stockReceipts.rows = s.stockReceipts.rows ++ [r.receipt]
  stock : t.stock.rows = s.stock.rows.map (swappedEntry r)
  deliveries : t.deliveries.rows = s.deliveries.rows.map (swappedRecord r)
  items : t.items.rows = s.items.rows.map (swappedItem r)

theorem update_written {ρ : Type} [Row ρ] {T : TableRef Db ρ} (key : ρ → Id) (f : ρ → ρ) {k : Id} {n : Nat}
    {s' : Db} (h : update T (fun s x => key x == k && swapWritten s r) (fun _ x => f x) c s = .ok (n, s'))
    (hw : swapWritten s r = true) :
    ∃ t, t.rows = (T.get s).rows.map (fun x => if key x = k then f x else x) ∧ s' = T.set s t := by
  obtain ⟨-, t, ht, rfl⟩ := update_ok h
  refine ⟨t, ht.trans (map_congr_left fun x _ => ?_), rfl⟩
  simp only [hw, Bool.and_true, beq_iff_eq]

theorem swapBatch_ok (hnew : swapWritten s r = false) (hb : batch (swapBatch r) 0 s = .ok (ns, t)) :
    t = s ∨ SwapWrites r s t := by
  obtain ⟨n1, s1, n2, s2, n3, s3, n4, s4, n5, s5, h1, h2, h3, h4, h5, rfl⟩ := batch_five_ok hb
  obtain ⟨-, t1, ht1, rfl⟩ := insert_abort_ok h1
  by_cases hg : swapGate s r = true
  · rw [if_pos hg] at ht1
    have hw : swapWritten (Db.stockReceiptsT.set s t1) r = true := by
      refine exist_iff.mpr ⟨r.receipt, ?_, by simp⟩
      show r.receipt ∈ t1.rows
      rw [ht1]
      exact mem_append_right _ (mem_singleton.mpr rfl)
    obtain ⟨t2, ht2, rfl⟩ := update_written StockEntry.id (takenEntry r) h2 hw
    obtain ⟨t3, ht3, rfl⟩ := update_written StockEntry.id givenUpEntry h3 hw
    obtain ⟨t4, ht4, rfl⟩ := update_written DeliveryRecord.id _ h4 hw
    obtain ⟨t5, ht5, rfl⟩ := update_written ShopOrderItem.id _ h5 hw
    refine Or.inr ⟨hg, ht1, ?_, ht4, ht5⟩
    have ht3' : t3.rows = t2.rows.map _ := ht3
    show t3.rows = s.stock.rows.map (swappedEntry r)
    rw [ht3', show t2.rows = s.stock.rows.map _ from ht2, map_map]
    refine map_congr_left fun e _ => ?_
    unfold swappedEntry
    dsimp only [Function.comp_apply]
    by_cases hcand : e.id = r.candidate.id
    · simp only [if_pos hcand]
      rfl
    · simp only [if_neg hcand]
  · rw [if_neg hg, append_nil] at ht1
    obtain rfl : t1 = s.stockReceipts := ext_rows ht1
    have hmiss : ∀ p : Bool, (p && swapWritten s r) = false := fun p => by rw [hnew, Bool.and_false]
    obtain rfl : s2 = s := update_miss h2 fun _ _ => hmiss _
    obtain rfl : s3 = s2 := update_miss h3 fun _ _ => hmiss _
    obtain rfl : s4 = s3 := update_miss h4 fun _ _ => hmiss _
    exact Or.inl (update_miss h5 fun _ _ => hmiss _)

/-! ## What the reads leave -/

/-- The item, the record and the entry of a swap belong to each other and to its order. -/
structure SwapRead (r : SwapRef) (s : Db) : Prop where
  item : ∃ i, s.items.get? r.orderItemId = some i ∧ i.orderId = r.orderId
  record : ∃ d, s.deliveries.get? r.deliveryId = some d ∧ d.orderItemId = r.orderItemId
  entry : ∃ e, s.stock.get? r.candidate.id = some e ∧ e.sellableItemId = r.toComponentId
  receipt : r.receipt.scope = .deliverySwap ∧ r.receipt.orderId = r.orderId

theorem SwapRead.later (h : SwapRead r s) (hr : SwapRely s t) : SwapRead r t := by
  obtain ⟨i, hi, hio⟩ := h.item
  obtain ⟨d, hd, hdi⟩ := h.record
  obtain ⟨e, he, hes⟩ := h.entry
  obtain ⟨i', hi', hi'o⟩ := hr.owners.items _ i hi
  obtain ⟨d', hd', hd'i, -⟩ := hr.owners.deliveries _ d hd
  obtain ⟨e', he', he's, -⟩ := hr.entries _ e he
  exact ⟨⟨i', hi', hi'o.trans hio⟩, ⟨d', hd', hd'i.trans hdi⟩, ⟨e', he', he's.trans hes⟩, h.receipt⟩

theorem loadSwapOrder_mem (h : loadSwapOrder s orderNumber = .ok d) : d ∈ deliveriesOfOrder s orderNumber := by
  unfold loadSwapOrder at h
  split at h
  · next x hx =>
    split at h
    · rw [hx, mem_singleton]
      exact (Except.ok.inj h).symm
    · cases h
  · cases h

theorem swapCandidate_get {componentId : Id} (h : swapCandidate s componentId = some e) :
    s.stock.get? e.id = some e ∧ e.sellableItemId = componentId := by
  unfold swapCandidate at h
  have hmem := mem_of_mem_filter (mem_of_mem_head? h)
  rw [mem_insertionSort, availableEntries, mem_filter, Bool.and_eq_true, beq_iff_eq] at hmem
  exact ⟨mem_get? hmem.1, hmem.2.1⟩

/-! ## A swap that is current takes effect as a whole -/

theorem swappedEntry_id (r : SwapRef) (e : StockEntry) : (swappedEntry r e).id = e.id := by
  unfold swappedEntry
  split
  · rfl
  split
  · rfl
  · rfl

theorem swappedRecord_id (r : SwapRef) (d : DeliveryRecord) : (swappedRecord r d).id = d.id := by
  unfold swappedRecord
  split <;> rfl

theorem swappedItem_id (r : SwapRef) (i : ShopOrderItem) : (swappedItem r i).id = i.id := by
  unfold swappedItem
  split <;> rfl

theorem SwapWrites.rely (h : SwapWrites r s t) : SwapRely s t where
  owners := by
    refine ⟨fun id i hi => ⟨swappedItem r i, ?_, ?_⟩, fun id d hd => ⟨swappedRecord r d, ?_, ?_⟩, fun x hx => ?_⟩
    · rw [get?_map h.items (swappedItem_id r), hi]
      rfl
    · unfold swappedItem
      split <;> rfl
    · rw [get?_map h.deliveries (swappedRecord_id r), hd]
      rfl
    · unfold swappedRecord
      split
      · exact ⟨rfl, fun hs => hs⟩
      · exact ⟨rfl, fun hs => hs⟩
    · rw [h.receipts]
      exact mem_append_left _ hx
  entries := by
    -- the gate excludes that the entry it delivers was disabled
    intro id e he
    refine ⟨swappedEntry r e, ?_, ?_, fun hd => ?_⟩
    · rw [get?_map h.stock (swappedEntry_id r), he]
      rfl
    · unfold swappedEntry
      split
      · rfl
      split
      · rfl
      · rfl
    · unfold swappedEntry
      split
      · rfl
      split
      · next hc =>
        have hgate := h.gate
        simp only [swapGate, Bool.and_eq_true] at hgate
        obtain ⟨x, hx, hxp⟩ := exist_iff.mp hgate.1.1.1
        rw [Bool.and_eq_true, beq_iff_eq, beq_iff_eq] at hxp
        have hxe : x = e := eq_of_key hx (get?_mem he) (hxp.1.trans hc.symm)
        rw [← hxe, hxp.2] at hd
        cases hd
      · exact hd

theorem SwapWrites.delivered (h : SwapWrites r s t)
    (honly : (deliveredEntries s r.orderItemId).map (·.id) = [r.oldEntryId])
    (he : s.stock.get? r.candidate.id = some e) (hne : r.candidate.id ≠ r.oldEntryId) :
    deliveredEntries t r.orderItemId = [takenEntry r e] := by
  have hkey : ∀ x ∈ s.stock.rows, (swappedEntry r x).orderItemId = some r.orderItemId ∧
      (swappedEntry r x).status = .delivered ↔ x.id = r.candidate.id := by
    intro x hx
    unfold swappedEntry
    split
    · next hold =>
      constructor
      · rintro ⟨hitem, -⟩
        cases hitem
      · intro hc
        exact absurd (hc.symm.trans hold) hne
    · next hold =>
      split
      · next hc => exact ⟨fun _ => hc, fun _ => ⟨rfl, rfl⟩⟩
      · next hc =>
        refine ⟨fun hd => absurd ?_ hold, fun hc' => absurd hc' hc⟩
        have hin : x.id ∈ (deliveredEntries s r.orderItemId).map (·.id) := by
          refine mem_map_of_mem (mem_filter.mpr ⟨hx, ?_⟩)
          rw [Bool.and_eq_true, beq_iff_eq, beq_iff_eq]
          exact hd
        rw [honly] at hin
        exact mem_singleton.mp hin
  unfold deliveredEntries
  rw [h.stock, filter_map]
  have hfilter : s.stock.rows.filter ((fun x : StockEntry => x.orderItemId == some r.orderItemId &&
      x.status == .delivered) ∘ swappedEntry r) =
      s.stock.rows.filter fun x => KeyedRow.key x == r.candidate.id && true := by
    refine filter_congr fun x hx => ?_
    rw [Bool.eq_iff_iff]
    simp only [Function.comp_apply, Bool.and_eq_true, beq_iff_eq, and_true]
    exact hkey x hx
  rw [hfilter, filter_key, he]
  have hid : e.id = r.candidate.id := get?_key he
  show [swappedEntry r e] = [takenEntry r e]
  unfold swappedEntry
  rw [if_neg (hid ▸ hne), if_pos hid]

theorem SwapWrites.swapped (h : SwapWrites r s t) (hread : SwapRead r s) (hsettled : swapSettled s r = true)
    (honly : (deliveredEntries s r.orderItemId).map (·.id) = [r.oldEntryId])
    (hcode : ∀ e ∈ s.stock.get? r.candidate.id, e.code = r.candidate.code) : Swapped r s t := by
  obtain ⟨i, hi, hio⟩ := hread.item
  obtain ⟨d, hd, hdi⟩ := hread.record
  obtain ⟨e, he, hes⟩ := hread.entry
  have hgate := h.gate
  simp only [swapGate, Bool.and_eq_true, exist_iff, beq_iff_eq] at hgate
  obtain ⟨⟨⟨⟨x, hx, hxid, hxs⟩, ⟨y, hy, ⟨hyid, hys⟩, hyi⟩⟩, ⟨z, hz, hzid, hzs⟩⟩, -⟩ := hgate
  have hxe : x = e := eq_of_key hx (get?_mem he) (hxid.trans (get?_key he).symm)
  subst hxe
  have hzd : z = d := eq_of_key hz (get?_mem hd) (hzid.trans (get?_key hd).symm)
  subst hzd
  have hne : r.candidate.id ≠ r.oldEntryId := by
    intro heq
    have hxy : x = y := eq_of_key hx hy (hxid.trans (heq.trans hyid.symm))
    rw [hxy, hys] at hxs
    cases hxs
  refine ⟨hsettled, itemOf_iff.mpr ⟨i, hi, hio⟩, ⟨x, swappedRecord r z, he, hxs, hes,
    h.delivered honly he hne, ?_, ?_, ?_, ?_⟩, ⟨givenUpEntry y, ?_, rfl⟩, ?_, ?_⟩
  · rw [get?_map h.deliveries (swappedRecord_id r), hd]
    rfl
  · unfold swappedRecord
    rw [if_pos hzid]
    exact hdi
  · unfold swappedRecord
    rw [if_pos hzid]
    exact hzs
  · unfold swappedRecord
    rw [if_pos hzid, hcode x he]
  · have hyget : s.stock.get? r.oldEntryId = some y := get?_eq_some_iff.mpr ⟨hy, hyid⟩
    rw [get?_map h.stock (swappedEntry_id r), hyget, Option.map_some]
    unfold swappedEntry
    rw [if_pos hyid]
  · -- two receipts of one request would clash
    unfold stockReceipt
    rw [find?_eq_none]
    intro x hx hxp
    rw [Bool.and_eq_true, Bool.and_eq_true, beq_iff_eq, beq_iff_eq, beq_iff_eq] at hxp
    have hclash := distinct_append h.receipts hx
    simp [Row.clash, hxp.1.1, hxp.1.2, hxp.2, hread.receipt.1, hread.receipt.2] at hclash
  · unfold stockReceipt
    rw [find?_isSome]
    refine ⟨r.receipt, ?_, ?_⟩
    · rw [h.receipts]
      exact mem_append_right _ (mem_singleton.mpr rfl)
    · simp [hread.receipt.1, hread.receipt.2]

/-! ## The calls side by side -/

inductive SwapCall where
  | shop (c : ShopCall)
  | refund (c : RefundCall)
  | delivery (c : DeliveryCall)
  | swap (q : SwapRequest)

def SwapCall.code : SwapCall → Prog Db StockSite DomainError Unit
  | .shop c => c.code.relabel .shop
  | .refund c => c.code.void.relabel .shop
  | .delivery c => c.code.void.relabel .shop
  | .swap q => (swapDeliveredCode q).void

def swapSpec : Spec Db StockSite Empty :=
  .ofRel (fun _ => True) swapCurrent (fun _ _ => True) SwapRely (fun _ => trivial) .refl .trans

theorem swap_admits (h : SwapRely s t) : swapSpec.Admits ∅ ∅ s t :=
  Spec.admits_ofRel trivial trivial fun _ => h

theorem swap_admitsSite (h : SwapRely s t) : (swapSpec.comap StockSite.shop).Admits ∅ ∅ s t :=
  Spec.admits_comap.mpr (swap_admits h)

theorem batch_swapRely {sts : List (Stmt Db)} (h : ∀ st ∈ sts, StoreStmt st ∨ Keeps storeCore st)
    (hb : batch sts c s = .ok (ns, t)) : SwapRely s t :=
  batch_within .refl .trans (fun st hst => store_swapRely (h st hst)) hb

theorem swap_admitsShop : AdmitsShop (swapSpec.comap StockSite.shop) fun _ => True := by
  intro x sts t ns u h _ _ hb
  exact swap_admitsSite (batch_swapRely (fun st hst => (h.stmts st hst).store) hb)

theorem swap_refund (c : RefundCall) (s : Db) : Bare (swapSpec.comap StockSite.shop) c.code s :=
  c.only.bare .refl .trans (fun _ hst => store_swapRely hst.store) (fun _ _ _ h => swap_admitsSite h) s

theorem swap_delivery : DeliverySteps (swapSpec.comap StockSite.shop) fun _ _ _ _ => True where
  link _ _ _ _ _ _ _ _ := trivial
  stable _ _ _ _ _ _ _ := trivial
  idle _ _ _ _ _ h := swap_admitsSite (h.move (C := PlainContent)).swapRely
  upgrade _ _ _ _ _ _ _ _ _ _ hb :=
    swap_admitsSite (batch_deliveryMove upgradeBatch_move hb).swapRely
  agent _ _ _ _ _ _ _ _ _ hb := swap_admitsSite (batch_deliveryMove agentBatch_move hb).swapRely
  process _ _ _ _ _ _ _ _ _ _ _ _ hb :=
    swap_admitsSite (batch_deliveryMove deliverBatch_move hb).swapRely
  start _ _ _ _ _ _ _ _ _ hb :=
    swap_admitsSite (batch_deliveryMove startManualBatch_move hb).swapRely
  complete _ _ _ _ _ _ _ _ _ _ _ hb :=
    swap_admitsSite (batch_deliveryMove completeManualBatch_move hb).swapRely

/-- What an action that changes the database does, at the site of a swap. -/
def SwapStep (x : StockSite) (s t : Db) : Prop :=
  match x with
  | .swapDeliveredCode r => Swapped r s t
  | _ => True

section Each

variable {α : Type} {s : Db}

theorem swapCommit_each (h : SwapRead r s) : Each swapSpec (fun x s t _ => SwapStep x s t)
      (Prog.commit (.swapDeliveredCode r) (swapBatch r) : Prog Db StockSite DomainError (List Nat)) s := by
  refine attempt fun t hr _ hc ns u hb => ?_
  obtain ⟨hnew, hgate⟩ := hc
  rcases swapBatch_ok hnew hb with rfl | hw
  · exact Or.inl rfl
  · obtain ⟨hsettled, honly, hcode⟩ := hgate hw.gate
    exact Or.inr ⟨swap_admits hw.rely, hw.swapped (h.later hr) hsettled honly hcode⟩

theorem performSwap_each {q : SwapRequest} {s0 : Db} (hd : d ∈ deliveriesOfOrder s0 orderNumber)
    (h0 : SwapRely s0 s) : Each swapSpec (fun x s t _ => SwapStep x s t) (performSwap q d) s := by
  unfold performSwap
  split
  · exact throw _
  split
  · exact throw _
  refine query fun s1 h1 _ => ?_
  split
  swap
  · exact throw _
  next oldEntry _ =>
  split
  · exact throw _
  refine query fun s2 h2 _ => ?_
  cases hcand : swapCandidate s2 q.toComponentId with
  | none => exact throw _
  | some candidate =>
    dsimp only
    split
    · exact throw _
    refine bind (swapCommit_each ?_) fun ns s3 _ => query fun s4 _ _ => ?_
    · obtain ⟨-, ⟨i, hi, hio, -⟩, ⟨x, hx, hxi, -⟩⟩ := deliveriesOfOrder_mem hd
      have hrely : SwapRely s0 s2 := h0.trans _ _ _ (h1.trans _ _ _ h2)
      obtain ⟨i', hi', hi'o⟩ := hrely.owners.items _ i hi
      obtain ⟨x', hx', hx'i, -⟩ := hrely.owners.deliveries _ x hx
      obtain ⟨hget, hsell⟩ := swapCandidate_get hcand
      exact ⟨⟨i', hi', hi'o.trans hio⟩, ⟨x', hx', hx'i.trans hxi⟩, ⟨candidate, hget, hsell⟩, rfl, rfl⟩
    · split
      · exact throw _
      refine query fun s5 _ _ => ?_
      split
      · exact done _
      · exact throw _

theorem swapDeliveredCode_each (q : SwapRequest) (s : Db) :
    Each swapSpec (fun x s t _ => SwapStep x s t) (swapDeliveredCode q) s := by
  unfold swapDeliveredCode
  split
  · exact throw _
  split
  · exact throw _
  refine query fun s1 _ _ => ?_
  cases hload : loadSwapOrder s1 q.orderNumber with
  | error err => exact throw _
  | ok d =>
    refine query fun s2 h2 _ => ?_
    cases stockReceipt s2 .deliverySwap d.orderId q.requestRef with
    | none => exact performSwap_each (loadSwapOrder_mem hload) h2
    | some x =>
      dsimp only
      split
      · exact throw _
      split
      · exact done _
      · exact throw _

end Each

theorem SwapCall.each (c : SwapCall) (s : Db) : Each swapSpec (fun x s t _ => SwapStep x s t) c.code s := by
  cases c with
  | shop c =>
    exact Bare.each (ShopCall.bare swap_admitsShop c (by cases c <;> trivial) s) fun _ _ _ _ => trivial
  | refund c => exact Bare.each (swap_refund c s).void fun _ _ _ _ => trivial
  | delivery c => exact Bare.each (DeliveryCall.bare swap_delivery c s).void fun _ _ _ _ => trivial
  | swap q => exact (swapDeliveredCode_each q s).void

/-! ## Swaps take effect as a whole -/

theorem SwapRely.receipt (h : SwapRely s t) {scope : ReceiptNamespace} {orderId : Id} {ref : Nat}
    (hs : (stockReceipt s scope orderId ref).isSome = true) :
    (stockReceipt t scope orderId ref).isSome = true := by
  unfold stockReceipt at hs ⊢
  rw [find?_isSome] at hs ⊢
  obtain ⟨x, hx, hp⟩ := hs
  exact ⟨x, h.owners.receipts x hx, hp⟩

theorem swap_move {w : World Db StockSite DomainError Unit} (hrun : Runs SwapCall.code swapCurrent ⟨s, []⟩ w)
    {i : Nat} (hsite : w.site i = some (.swapDeliveredCode r)) :
    (w.move SwapCall.code swapCurrent (.run i)).db = w.db ∨
      Swapped r w.db (w.move SwapCall.code swapCurrent (.run i)).db := by
  let _ : ∀ x s, Decidable (swapSpec.cond x s) :=
    fun x s => inferInstanceAs (Decidable (swapCurrent x s))
  have hmove := Runs.move (S := swapSpec) (fun c s _ => SwapCall.each c s) trivial hrun hsite
  refine hmove.imp_right ?_
  rintro ⟨k, -, -, hstep⟩
  exact hstep

/-- In every run whose swaps are current, the batch of a swap writes nothing or takes effect as a whole.
The code that was given up is never available again, and no swap for the same order and request
reference writes anything later. -/
theorem swaps_atomic {s : Db} {w : World Db StockSite DomainError Unit}
    (hrun : Runs SwapCall.code swapCurrent ⟨s, []⟩ w) {i : Nat} {r : SwapRef}
    (hsite : w.site i = some (.swapDeliveredCode r)) :
    (w.move SwapCall.code swapCurrent (.run i)).db = w.db ∨
      Swapped r w.db (w.move SwapCall.code swapCurrent (.run i)).db ∧
      ∀ w', Runs SwapCall.code swapCurrent (w.move SwapCall.code swapCurrent (.run i)) w' →
        (∃ e, w'.db.stock.get? r.oldEntryId = some e ∧ e.status = .disabled) ∧
        ∀ j r', w'.site j = some (.swapDeliveredCode r') → r'.orderId = r.orderId →
          r'.receipt.requestRef = r.receipt.requestRef →
          (w'.move SwapCall.code swapCurrent (.run j)).db = w'.db := by
  rcases swap_move hrun hsite with hsame | hswap
  · exact Or.inl hsame
  refine Or.inr ⟨hswap, fun w' hlater => ?_⟩
  have hmid := hrun.trans (World.move_runs SwapCall.code swapCurrent w (.run i))
  obtain ⟨-, -, hcalls⟩ := Runs.each (S := swapSpec) (fun c s _ => SwapCall.each c s) trivial hmid
  obtain ⟨-, hrely, -⟩ := Runs.onward (S := swapSpec) (fun c s _ => SwapCall.each c s) trivial hcalls hlater
  have hkept : SwapRely _ w'.db := hrely
  constructor
  · obtain ⟨e, he, hdis⟩ := hswap.old
    obtain ⟨e', he', -, hkeep⟩ := hkept.entries _ e he
    exact ⟨e', he', hkeep hdis⟩
  · intro j r' hsite' horder href
    rcases swap_move (hmid.trans hlater) hsite' with hsame | hagain
    · exact hsame
    · -- it would have found no receipt of the request
      have hthere := hkept.receipt hswap.recorded
      have hnone := hagain.first
      rw [horder, href] at hnone
      rw [hnone] at hthere
      cases hthere

/-! ## Two runs -/

def deliveredCodeDb : Db :=
  { paidOrderDb with
    orders := .ok [{ id := 1, status := .completed, version := 1, totalMinor := 100, paidMinor := 100 }]
    items := .ok [{ id := 1, orderId := 1, sellableItemId := 1, deliveryComponentId := 1
                    deliveryComponentType := .stock, quantity := 1 }]
    deliveries := .ok [{ id := 1, orderItemId := 1, deliveryType := .stock, status := .delivered
                         contentEncrypted := some (.codes [⟨10, false⟩]) }]
    stock := .ok [{ id := 10, sellableItemId := 1, status := .delivered, orderItemId := some 1
                    fromWarehouse := true },
                  { id := 11, sellableItemId := 2, status := .available, fromWarehouse := true }] }

def swapForItem2 : SwapRequest where
  requestRef := 5
  orderNumber := 0
  fromComponentId := 1
  toComponentId := 2
  oldFingerprint := 10
  payloadDigest := 7
  receiptId := 1
  commerceSecret := true
  prices := .ok ()
  ownedContent := fun _ => true

def swap10For11 : SwapRef where
  orderId := 1
  orderItemId := 1
  deliveryId := 1
  fromComponentId := 1
  toComponentId := 2
  oldEntryId := 10
  candidate := { id := 11, sellableItemId := 2, status := .available, fromWarehouse := true }
  receipt := { id := 1, scope := .deliverySwap, orderId := 1, requestRef := 5, payloadDigest := 7 }

def swapReads : List (Move SwapCall) := .start (.swap swapForItem2) :: List.replicate 4 (.run 0)

def swapReadRun : World Db StockSite DomainError Unit :=
  World.exec SwapCall.code swapCurrent ⟨deliveredCodeDb, []⟩ swapReads

theorem swaps_atomic_swapReadRun : Swapped swap10For11 swapReadRun.db
        (swapReadRun.move SwapCall.code swapCurrent (.run 0)).db ∧
      ∀ w', Runs SwapCall.code swapCurrent (swapReadRun.move SwapCall.code swapCurrent (.run 0)) w' →
        (∃ e, w'.db.stock.get? 10 = some e ∧ e.status = .disabled) ∧
        ∀ j r', w'.site j = some (.swapDeliveredCode r') → r'.orderId = 1 →
          r'.receipt.requestRef = 5 → (w'.move SwapCall.code swapCurrent (.run j)).db = w'.db := by
  have hrun : Runs SwapCall.code swapCurrent ⟨deliveredCodeDb, []⟩ swapReadRun :=
    World.exec_runs SwapCall.code swapCurrent _ _
  have hsite : swapReadRun.site 0 = some (.swapDeliveredCode swap10For11) := by decide
  refine (swaps_atomic hrun hsite).resolve_left fun hsame => ?_
  have hstock := congrArg (fun s : Db => s.stock.rows.map (·.status)) hsame
  exact absurd hstock (by decide)

def refundedMeanwhileRun : World Db StockSite DomainError Unit :=
  World.exec SwapCall.code anySite ⟨deliveredCodeDb, []⟩
    (swapReads ++ Move.start (.refund (fullRefund 1 1 5)) :: List.replicate 12 (Move.run 1) ++
      Move.start (.refund (answered 1 (.succeeded (.provider 1) none) 6)) :: List.replicate 12 (Move.run 2))

/-- The swap still takes the second code, for an order that is refunded. -/
theorem not_swaps_atomic : ¬∀ s, ∀ w : World Db StockSite DomainError Unit, Runs SwapCall.code anySite ⟨s, []⟩ w →
      ∀ i r, w.site i = some (.swapDeliveredCode r) → (w.move SwapCall.code anySite (.run i)).db = w.db ∨
          Swapped r w.db (w.move SwapCall.code anySite (.run i)).db := by
  intro h
  have hsite : refundedMeanwhileRun.site 0 = some (.swapDeliveredCode swap10For11) := by
    decide
  rcases h deliveredCodeDb refundedMeanwhileRun (World.exec_runs SwapCall.code anySite _ _) 0
    swap10For11 hsite with hsame | hswap
  · have hstock := congrArg (fun s : Db => s.stock.rows.map (·.status)) hsame
    exact absurd hstock (by decide)
  · have hrefunded : swapSettled refundedMeanwhileRun.db swap10For11 = false := by decide
    rw [hswap.settled] at hrefunded
    cases hrefunded

end Gmshop
