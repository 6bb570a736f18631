import GmshopEdge.Inventory.Imports
import GmshopEdge.Lib.Guarantee

/-!
# A code is in an item's stock once

The index on item and fingerprint keeps a code out that is there already, as long as both were fingerprinted
under one key. So the invariant is about the key alone: every entry's fingerprint is the one that the stored
secret gives (`Keyed`).

The secret is read some steps before the entries are written, and a rotation replaces it under the entries:
`keyKept` is the condition that neither happens.
-/

namespace Gmshop

open List hiding Vector
open Sql Stmt Prog Utf16 Bool Prod Bare

variable {D : Type} [DecidableEq D] {hmac : Utf16 → Utf16 → D}

/-! ## The property -/

/-- No two entries of an item hold one code, and an entry is found by the fingerprint that its code has now. -/
structure OnceInStock (hmac : Utf16 → Utf16 → D) (s : Inventory D) : Prop where
  once : s.entries.rows.Pairwise fun a b => a.sellableItemId = b.sellableItemId → a.code ≠ b.code
  found : ∀ e ∈ s.entries.rows, s.entries.rows.filter (fun x => x.sellableItemId == e.sellableItemId &&
    x.contentFingerprint == fingerprintInventorySecret hmac e.code s.commerceSecret) = [e]
  reconciled : ∀ e ∈ s.entries.rows, e.status = .available →
    reconcileStockEntry hmac s e.sellableItemId e.code = some e

/-- The entries are written under the stored secret, and the secret is replaced while there are none. -/
def keyKept (x : InventorySite) (s : Inventory D) : Prop :=
  match x with
  | .importEntries secret => s.commerceSecret = secret
  | .rotate => s.entries.rows = []
  | .supplierOrder => True

instance (x : InventorySite) (s : Inventory D) : Decidable (keyKept x s) := by
  cases x <;> unfold keyKept <;> infer_instance

/-! ## The invariant -/

def Keyed (hmac : Utf16 → Utf16 → D) (s : Inventory D) : Prop :=
  ∀ e ∈ s.entries.rows, e.contentFingerprint = fingerprintInventorySecret hmac e.code s.commerceSecret

variable {a b e : InventoryEntry D} {s : Inventory D} {secret : Utf16} {ids : Nat → Id}

theorem InventoryEntry.clash_of (hitem : a.sellableItemId = b.sellableItemId)
    (hprint : a.contentFingerprint = b.contentFingerprint) : Row.clash a b = true := by
  show (_ || _) = true
  rw [or_eq_true, and_eq_true, beq_iff_eq, beq_iff_eq, beq_iff_eq]
  exact Or.inr ⟨hitem, hprint⟩

theorem eq_of_fingerprint (ha : a ∈ s.entries.rows) (hb : b ∈ s.entries.rows)
    (hitem : a.sellableItemId = b.sellableItemId) (hprint : a.contentFingerprint = b.contentFingerprint) : a = b :=
  Table.eq_of_clash ha hb (InventoryEntry.clash_of hitem hprint) (InventoryEntry.clash_of hitem.symm hprint.symm)

section

variable (h : Keyed hmac s)
include h

theorem Keyed.once : s.entries.rows.Pairwise fun a b => a.sellableItemId = b.sellableItemId → a.code ≠ b.code := by
  refine s.entries.distinct.imp_of_mem ?_
  intro a b ha hb hclash hitem hcode
  have hprint : a.contentFingerprint = b.contentFingerprint := by
    rw [h a ha, h b hb, hcode]
  rw [InventoryEntry.clash_of hitem hprint] at hclash
  cases hclash

theorem Keyed.found (he : e ∈ s.entries.rows) :
    s.entries.rows.filter (fun x => x.sellableItemId == e.sellableItemId &&
      x.contentFingerprint == fingerprintInventorySecret hmac e.code s.commerceSecret) = [e] := by
  have hp : ∀ x ∈ s.entries.rows, (x.sellableItemId == e.sellableItemId &&
      x.contentFingerprint == fingerprintInventorySecret hmac e.code s.commerceSecret) = true ↔ x = e := by
    intro x hx
    rw [Bool.and_eq_true, beq_iff_eq, beq_iff_eq, ← h e he]
    constructor
    · rintro ⟨hitem, hprint⟩
      exact eq_of_fingerprint hx he hitem hprint
    · rintro rfl
      exact ⟨rfl, rfl⟩
  have hnodup : s.entries.rows.Nodup := by
    refine s.entries.distinct.imp ?_
    rintro a b hclash rfl
    rw [InventoryEntry.clash_of rfl rfl] at hclash
    cases hclash
  have hfilter : s.entries.rows.filter (fun x => x.sellableItemId == e.sellableItemId &&
      x.contentFingerprint == fingerprintInventorySecret hmac e.code s.commerceSecret) =
      s.entries.rows.filter (· == e) := by
    refine filter_congr fun x hx => ?_
    rw [Bool.eq_iff_iff, hp x hx, beq_iff_eq]
  rw [hfilter, filter_beq, count_eq_one_of_mem hnodup he, replicate_one]

theorem Keyed.reconciled (he : e ∈ s.entries.rows) (havailable : e.status = .available) :
    reconcileStockEntry hmac s e.sellableItemId e.code = some e := by
  unfold reconcileStockEntry
  cases hfind : s.entries.rows.find? fun x => x.sellableItemId == e.sellableItemId &&
      x.contentFingerprint == fingerprintInventorySecret hmac e.code s.commerceSecret && x.status == .available with
  | none =>
    have hnot := find?_eq_none.mp hfind e he
    simp [← h e he, havailable] at hnot
  | some x =>
    have hx := find?_some hfind
    rw [and_eq_true, and_eq_true, beq_iff_eq, beq_iff_eq, ← h e he] at hx
    rw [eq_of_fingerprint (mem_of_find?_eq_some hfind) he hx.1.1 hx.1.2]

theorem Keyed.onceInStock : OnceInStock hmac s where
  once := h.once
  found _ he := h.found he
  reconciled _ he havailable := h.reconciled he havailable

end

def inventorySpec (hmac : Utf16 → Utf16 → D) : Spec (Inventory D) InventorySite Empty :=
  .ofRel (Keyed hmac) keyKept (fun _ _ => True) (fun _ _ => True) (fun _ => trivial) (fun _ => trivial)
    fun _ _ _ _ _ => trivial

/-! ## Statements -/

/-- The statement writes no secret, and entries under `secret` only. -/
structure WritesUnder (hmac : Utf16 → Utf16 → D) (secret : Utf16) (s t : Inventory D) : Prop where
  setting : t.dataEncryptionSecret = s.dataEncryptionSecret
  keyed : s.commerceSecret = secret → Keyed hmac s → Keyed hmac t

theorem WritesUnder.refl (secret : Utf16) (s : Inventory D) : WritesUnder hmac secret s s := ⟨rfl, fun _ h => h⟩

theorem WritesUnder.trans (secret : Utf16) (s t u : Inventory D) (h : WritesUnder hmac secret s t)
    (h' : WritesUnder hmac secret t u) : WritesUnder hmac secret s u where
  setting := h'.setting.trans h.setting
  keyed hsecret hs := by
    have hsame : t.commerceSecret = s.commerceSecret := by
      unfold Inventory.commerceSecret
      rw [h.setting]
    exact h'.keyed (hsame.trans hsecret) (h.keyed hsecret hs)

theorem writesUnder_of_keeps {st : Stmt (Inventory D)}
    (h : Keeps (fun s => (s.entries, s.dataEncryptionSecret)) st) : Within (WritesUnder hmac secret) st := by
  intro c s n t hst
  obtain ⟨hentries, hsecret⟩ := mk.inj (h c s n t hst)
  refine ⟨hsecret, fun _ hs e he => ?_⟩
  rw [hentries] at he
  rw [hs e he, Inventory.commerceSecret, Inventory.commerceSecret, hsecret]

theorem receipt_writesUnder (secret : Utf16) (r : ImportReceipt) :
    Within (WritesUnder hmac secret) (insertReceipt r : Stmt (Inventory D)) :=
  writesUnder_of_keeps (insert_off rfl)

theorem orders_writesUnder (secret : Utf16) (p : Inventory D → CardOrder → Bool)
    (f : Inventory D → CardOrder → CardOrder) :
    Within (WritesUnder hmac secret) (update Inventory.ordersT p f) :=
  writesUnder_of_keeps (update_off rfl)

theorem entries_writesUnder {policy : OnConflict} {g : Inventory D → List (InventoryEntry D)}
    (hg : ∀ s, ∀ e ∈ g s, e.contentFingerprint = fingerprintInventorySecret hmac e.code secret) :
    Within (WritesUnder hmac secret) (insert Inventory.entriesT policy g) := by
  intro c s n t h
  obtain ⟨-, entries, hrows, rfl⟩ := insert_ok h
  refine ⟨rfl, fun hsecret hs e he => ?_⟩
  have he : e ∈ entries.rows := he
  rw [hrows, mem_append] at he
  show e.contentFingerprint = fingerprintInventorySecret hmac e.code s.commerceSecret
  rcases he with he | he
  · exact hs e he
  · rw [hsecret]
    exact hg s e ((admitted_sublist _ _ _).mem he)

theorem imports_bare {sts : List (Stmt (Inventory D))} (hsts : ∀ st ∈ sts, Within (WritesUnder hmac secret) st) :
    Bare (inventorySpec hmac) (commit (.importEntries secret) sts : InventoryProg D (List Nat)) s := by
  refine commit fun t _ ht hsecret ns u hb => ?_
  have hwrites := batch_within (WritesUnder.refl secret) (WritesUnder.trans secret) hsts hb
  exact Spec.admits_ofRel (hwrites.keyed hsecret ht) trivial fun _ => trivial

theorem orders_bare {p : Inventory D → CardOrder → Bool} {f : Inventory D → CardOrder → CardOrder} :
    Bare (inventorySpec hmac)
      (commit .supplierOrder [update Inventory.ordersT p f] : InventoryProg D (List Nat)) s := by
  refine commit fun t _ ht _ ns u hb => ?_
  obtain ⟨n, hu, -⟩ := batch_single_ok hb
  exact Spec.admits_ofRel ((orders_writesUnder t.commerceSecret p f _ _ _ _ hu).keyed rfl ht) trivial fun _ => trivial

/-! ## The calls -/

theorem requireKeyring_bare (secret : Utf16) (s : Inventory D) :
    Bare (inventorySpec hmac) (requireKeyring secret) s := by
  unfold requireKeyring
  split
  · exact done ()
  · exact throw _

omit [DecidableEq D] in
theorem restockEntries_print {data : RestockRequest} {normalized : List Utf16}
    (he : e ∈ restockEntries hmac secret ids data normalized) :
    e.contentFingerprint = fingerprintInventorySecret hmac e.code secret := by
  obtain ⟨i, hi, rfl⟩ := List.mem_mapIdx.mp he
  rfl

omit [DecidableEq D] in
theorem generatedEntries_print {data : GenerateRequest} {codes : List Utf16}
    (he : e ∈ generatedEntries hmac secret ids data codes) :
    e.contentFingerprint = fingerprintInventorySecret hmac e.code secret := by
  obtain ⟨i, hi, rfl⟩ := List.mem_mapIdx.mp he
  rfl

omit [DecidableEq D] in
theorem cardEntries_print {order : CardOrder} {cards : List Utf16} (he : e ∈ cardEntries hmac secret order cards) :
    e.contentFingerprint = fingerprintInventorySecret hmac e.code secret := by
  obtain ⟨i, hi, rfl⟩ := List.mem_mapIdx.mp he
  rfl

theorem importStatements_within {r : ImportReceipt} {prepared : List (InventoryEntry D)}
    (hprint : ∀ e ∈ prepared, e.contentFingerprint = fingerprintInventorySecret hmac e.code secret) :
    ∀ st ∈ insertReceipt r :: prepared.map insertEntry, Within (WritesUnder hmac secret) st := by
  intro st hst
  rcases mem_cons.mp hst with rfl | hst
  · exact receipt_writesUnder secret r
  · obtain ⟨e, he, rfl⟩ := mem_map.mp hst
    refine entries_writesUnder fun _ x hx => ?_
    rw [mem_singleton.mp hx]
    exact hprint e he

theorem importRestockBatch_bare (ids : Nat → Id) (data : RestockRequest) (s : Inventory D) :
    Bare (inventorySpec hmac) (importRestockBatch hmac ids data) s := by
  unfold importRestockBatch
  dsimp only
  split
  · exact throw _
  refine query fun t _ _ => ?_
  split
  · exact throw _
  refine query fun t _ _ => ?_
  split
  · exact throw _
  refine query fun u _ _ => ?_
  split
  · split
    · exact throw _
    · exact done none
  split
  · exact throw _
  refine bind (requireKeyring_bare _ _) fun _ v _ => ?_
  refine query fun x _ _ => ?_
  split
  · exact throw _
  refine bind (imports_bare (importStatements_within fun e he => restockEntries_print he)) fun _ y _ => ?_
  exact query fun _ _ _ => done _

theorem generateRedeemSellableInventory_bare (ids : Nat → Id) (secret : Utf16) (data : GenerateRequest)
    (batch : IssuedBatch) (s : Inventory D) :
    Bare (inventorySpec hmac) (generateRedeemSellableInventory hmac ids secret data batch) s := by
  unfold generateRedeemSellableInventory
  dsimp only
  split
  · exact throw _
  refine query fun t _ _ => ?_
  split
  · exact throw _
  refine query fun u _ _ => ?_
  split
  · split
    · exact throw _
    · exact done none
  split
  · exact throw _
  refine bind (requireKeyring_bare _ _) fun _ v _ => ?_
  refine bind (imports_bare (importStatements_within fun e he => generatedEntries_print he)) fun _ y _ => ?_
  exact query fun _ _ _ => done _

theorem fulfillSupplierOrder_bare (order : CardOrder) (result : SuppliedCards) (secret : Utf16) (now : Time)
    (s : Inventory D) : Bare (inventorySpec hmac) (fulfillSupplierOrder hmac order result secret now) s := by
  unfold fulfillSupplierOrder
  dsimp only
  split
  · exact throw _
  refine bind (requireKeyring_bare _ _) fun _ v _ => ?_
  refine bind (imports_bare fun st hst => ?_) fun results y _ => ?_
  · rcases mem_cons.mp hst with rfl | hst
    · exact orders_writesUnder _ _ _
    · obtain ⟨e, he, rfl⟩ := mem_map.mp hst
      refine entries_writesUnder fun t x hx => ?_
      split at hx
      · rw [mem_singleton.mp hx]
        exact cardEntries_print he
      · cases hx
  split
  · exact done _
  refine query fun t _ _ => ?_
  split
  · exact bind orders_bare fun _ _ _ => done _
  · exact done _

theorem applySupplied_bare (order : CardOrder) (result : SuppliedCards) (secret : Utf16) (now : Time)
    (s : Inventory D) : Bare (inventorySpec hmac) (applySupplied hmac order result secret now) s := by
  refine bind orders_bare fun _ t _ => ?_
  refine tryCatch (fulfillSupplierOrder_bare order result secret now t) fun err u _ => ?_
  exact bind orders_bare fun _ _ _ => fail err

theorem processSupplierOrder_bare (orderId accountId : Id) (result : SuppliedCards) (now : Time) (s : Inventory D) :
    Bare (inventorySpec hmac) (processSupplierOrder hmac orderId accountId result now) s := by
  refine query fun t _ _ => ?_
  split
  · exact throw _
  split
  · exact done _
  split
  · exact throw _
  refine query fun t _ _ => ?_
  split
  · exact throw _
  split
  · exact applySupplied_bare _ _ _ _ _
  refine bind orders_bare fun _ t _ => bind orders_bare fun claimed u _ => ?_
  split
  · exact throw _
  · exact applySupplied_bare _ _ _ _ _

theorem completeSupplierOrderFromCallback_bare (orderId : Id) (result : SuppliedCards) (now : Time)
    (s : Inventory D) : Bare (inventorySpec hmac) (completeSupplierOrderFromCallback hmac orderId result now) s := by
  refine query fun t _ _ => ?_
  split
  · exact throw _
  split
  · exact done _
  split
  · exact throw _
  refine query fun t _ _ => ?_
  split
  · exact throw _
  · exact fulfillSupplierOrder_bare _ _ _ _ _

theorem rotateRuntimeSecret_bare (bytes : Vector UInt8 32) (s : Inventory D) :
    Bare (inventorySpec hmac) (rotateRuntimeSecret bytes : InventoryProg D Unit) s := by
  refine query fun t _ _ => ?_
  split
  · exact throw _
  split
  · exact throw _
  split
  · exact throw _
  refine void (commit fun u _ _ hnone ns v hb => ?_)
  obtain ⟨n, hw, -⟩ := batch_single_ok hb
  simp only [writeSecret, Except.ok.injEq, mk.injEq] at hw
  obtain ⟨-, rfl⟩ := hw
  refine Spec.admits_ofRel (fun e he => ?_) trivial fun _ => trivial
  have he : e ∈ u.entries.rows := he
  rw [show u.entries.rows = [] from hnone] at he
  cases he

theorem inventoryCall_bare (call : InventoryCall) (s : Inventory D) :
    Bare (inventorySpec hmac) (call.code hmac) s := by
  cases call with
  | restock ids data => exact (importRestockBatch_bare ids data s).void
  | generate ids secret data batch => exact (generateRedeemSellableInventory_bare ids secret data batch s).void
  | process orderId accountId result now => exact (processSupplierOrder_bare orderId accountId result now s).void
  | callback orderId result now => exact (completeSupplierOrderFromCallback_bare orderId result now s).void
  | rotate bytes => exact rotateRuntimeSecret_bare bytes s

/-! ## Runs -/

/-- Where the key stays under the entries, every run leaves a code once in an item's stock. -/
theorem codes_once_in_stock {s : Inventory D} (hs : Keyed hmac s)
    {w : World (Inventory D) InventorySite InventoryError Unit}
    (h : Runs (InventoryCall.code hmac) keyKept ⟨s, []⟩ w) : OnceInStock hmac w.db := by
  have hgood := Runs.sound (inventorySpec hmac) (fun call t _ => (inventoryCall_bare call t).ok) h (good_idle _ hs)
  exact (show Keyed hmac w.db from hgood.1.1).onceInStock

def emptyShelf : Inventory (Utf16 × Utf16) where
  items := .of [{ id := 1 }]
  entries := .of [] ⟨List.Pairwise.nil, nofun⟩
  receipts := .of []
  orders := .of []
  dataEncryptionSecret := some (ascii "0123456789abcdef0123456789abcdef")

def restockOf (requestRef : String) (codes : List String) : RestockRequest :=
  ⟨ascii requestRef, 1, codes.map ascii, [], ascii "owner"⟩

/-- A rotation of the empty shelf, then two imports, the second with a code of the first. -/
theorem codes_once_in_stock_restocked : ∃ w : World (Inventory (Utf16 × Utf16)) InventorySite InventoryError Unit,
    Runs (InventoryCall.code mk) keyKept ⟨emptyShelf, []⟩ w ∧
      w.db.entries.rows.map (·.code) = [ascii "A", ascii "B"] ∧ OnceInStock mk w.db := by
  obtain ⟨w, hw⟩ : ∃ w, w = World.exec (InventoryCall.code mk) keyKept ⟨emptyShelf, []⟩
      (oneByOne [.rotate (Vector.replicate 32 7), .restock (· + 10) (restockOf "first" ["A", " B"]),
        .restock (· + 20) (restockOf "second" ["A"])] 7) := ⟨_, rfl⟩
  have hruns : Runs (InventoryCall.code mk) keyKept ⟨emptyShelf, []⟩ w := by
    rw [hw]
    exact World.exec_runs _ _ _ _
  refine ⟨w, hruns, ?_, codes_once_in_stock (fun e he => absurd he not_mem_nil) hruns⟩
  rw [hw]
  decide +kernel

/-- A code is imported, the key is rotated, and the code is imported again. -/
theorem code_twice_in_stock : ∃ w : World (Inventory (Utf16 × Utf16)) InventorySite InventoryError Unit,
    Function.Injective2 (mk : Utf16 → Utf16 → Utf16 × Utf16) ∧
      Runs (InventoryCall.code mk) anySite ⟨emptyShelf, []⟩ w ∧
      w.db.entries.rows.map (fun e => (e.sellableItemId, e.code)) = [(1, ascii "A"), (1, ascii "A")] ∧
      ¬ OnceInStock mk w.db := by
  obtain ⟨w, hw⟩ : ∃ w, w = World.exec (InventoryCall.code mk) anySite ⟨emptyShelf, []⟩
      (oneByOne [.restock (· + 10) (restockOf "first" ["A"]), .rotate (Vector.replicate 32 7),
        .restock (· + 20) (restockOf "second" ["A"])] 7) := ⟨_, rfl⟩
  have hcodes : w.db.entries.rows.map (fun e => (e.sellableItemId, e.code)) = [(1, ascii "A"), (1, ascii "A")] := by
    rw [hw]
    decide_cbv
  refine ⟨w, fun _ _ _ _ h => mk.inj h, ?_, hcodes, fun honce => ?_⟩
  · rw [hw]
    exact World.exec_runs _ _ _ _
  · have hpairs : (w.db.entries.rows.map fun e => (e.sellableItemId, e.code)).Pairwise (· ≠ ·) := by
      refine pairwise_map.mpr (honce.once.imp fun hab heq => ?_)
      obtain ⟨hitem, hcode⟩ := mk.inj heq
      exact hab hitem hcode
    rw [hcodes] at hpairs
    revert hpairs
    decide

end Gmshop
