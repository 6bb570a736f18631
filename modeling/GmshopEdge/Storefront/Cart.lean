import Mathlib
import GmshopEdge.Db.Schema

/-!
# Carts

`storefront/server/cart.ts`: an operation reads a cart, computes its new items and writes them with an UPDATE on
the version that it read. The reads, the writes, new carts and deleted ones of any number of devices interleave
(`Carts.step`). An update that hits was computed from the items that stand in its row (`cart_updates_kept`).
-/

namespace Gmshop

open List

structure StoredCartItem where
  sellableItemId : Id
  quantity : Nat

structure QuantityBounds where
  minimumQuantity : Nat
  maximumQuantity : Nat
  ordered : minimumQuantity ≤ maximumQuantity

def QuantityBounds.clamp (b : QuantityBounds) (quantity : Nat) : Nat :=
  max b.minimumQuantity (min quantity b.maximumQuantity)

/-- `storedCartItemsSchema`. -/
def storedCartItems (items : List StoredCartItem) : Bool :=
  decide (items.length ≤ 50) && items.all (fun i => decide (1 ≤ i.quantity ∧ i.quantity ≤ 1000)) &&
    decide (items.map (·.sellableItemId)).Nodup

def cartItemLimitExceeded : DomainError := ⟨"cart_item_limit_exceeded", 409, "A cart can contain at most 50 items"⟩
def cartItemUnavailable : DomainError := ⟨"cart_item_unavailable", 409, "Product is unavailable"⟩

/-- What a handler does to the items of a cart, with the bounds that it has read. -/
inductive CartOp where
  | sync (items : List StoredCartItem) (bounds : Id → Option QuantityBounds)
  | set (sellableItemId : Id) (quantity : Nat) (bounds : Option QuantityBounds)
  | remove (sellableItemIds : List Id)
  | clear

/-- `normalized.set(id, Math.min(1_000, (normalized.get(id) ?? 0) + quantity))`. -/
def addQuantity (normalized : List StoredCartItem) (item : StoredCartItem) : List StoredCartItem :=
  if normalized.any fun i => i.sellableItemId == item.sellableItemId then
    normalized.map fun i =>
      if i.sellableItemId = item.sellableItemId then { i with quantity := min 1000 (i.quantity + item.quantity) } else i
  else normalized ++ [{ item with quantity := min 1000 item.quantity }]

def CartOp.apply (op : CartOp) (cart : List StoredCartItem) : Except DomainError (List StoredCartItem) :=
  match op with
  | .sync items bounds =>
    let normalized := cart.foldl addQuantity (items.foldl addQuantity [])
    if 50 < normalized.length then .error cartItemLimitExceeded
    else .ok (normalized.filterMap fun i =>
      (bounds i.sellableItemId).map fun b => { i with quantity := b.clamp i.quantity })
  | .set id quantity bounds =>
    match bounds with
    | none => .error cartItemUnavailable
    | some b =>
      match cart.findIdx? fun i => i.sellableItemId == id with
      | some existing => .ok (cart.set existing ⟨id, b.clamp quantity⟩)
      | none => if 50 < cart.length + 1 then .error cartItemLimitExceeded else .ok (cart ++ [⟨id, b.clamp quantity⟩])
  | .remove ids => .ok (cart.filter fun i => !ids.contains i.sellableItemId)
  | .clear => .ok []

def CartOp.bounds : CartOp → Id → Option QuantityBounds
  | .sync _ bounds, id => bounds id
  | .set id _ bounds, id' => if id' = id then bounds else none
  | _, _ => none

structure CartRow where
  id : Id
  userId : Id
  version : Nat
  items : List StoredCartItem

structure CartSnapshot where
  id : Id
  version : Nat
  items : List StoredCartItem

/-- The carts, what the calls in flight have read of them, the ids that were given out and the operations whose
updates have hit. -/
structure Carts where
  rows : List CartRow := []
  snapshots : List CartSnapshot := []
  ids : List Id := []
  updates : List CartOp := []

def CartRow.snapshot (r : CartRow) : CartSnapshot := ⟨r.id, r.version, r.items⟩

inductive CartAct where
  | insert (id userId : Id)
  | read (userId : Id)
  | write (cart : CartSnapshot) (op : CartOp) (expectedVersion : Option Nat)
  | delete (id : Id)

/-- An update that does not hit is a version conflict; the handlers that try again read again. -/
def Carts.step (s : Carts) : CartAct → Option Carts
  | .insert id userId =>
    if id ∈ s.ids then none
    else some { s with
      rows := if s.rows.any fun r => r.userId == userId then s.rows else s.rows ++ [⟨id, userId, 1, []⟩]
      snapshots := ⟨id, 1, []⟩ :: s.snapshots
      ids := id :: s.ids }
  | .read userId =>
    (s.rows.find? fun r => r.userId == userId).map fun r => { s with snapshots := r.snapshot :: s.snapshots }
  | .write cart op expectedVersion =>
    match op.apply cart.items, s.rows.find? fun r => r.id == cart.id && r.version == cart.version with
    | .ok items, some r =>
      if expectedVersion.all (· == cart.version) && storedCartItems items then
        let updated := { r with version := r.version + 1, items := items }
        some { s with
          rows := s.rows.map fun x => if x.id = r.id then updated else x
          snapshots := updated.snapshot :: s.snapshots
          updates := op :: s.updates }
      else none
    | _, _ => none
  | .delete id => some { s with rows := s.rows.filter fun r => r.id != id }

def CartStep (s t : Carts) : Prop :=
  ∃ a, (∀ cart op expectedVersion, a = .write cart op expectedVersion → cart ∈ s.snapshots) ∧ s.step a = some t

/-- The quantity lies within the bounds that one of the operations has read of its item. -/
def StoredCartItem.Bounded (ops : List CartOp) (i : StoredCartItem) : Prop :=
  ∃ op ∈ ops, ∃ b, op.bounds i.sellableItemId = some b ∧ b.minimumQuantity ≤ i.quantity ∧ i.quantity ≤ b.maximumQuantity

structure CartsKept (s : Carts) : Prop where
  ids : ∀ r ∈ s.rows, r.id ∈ s.ids
  known : ∀ w ∈ s.snapshots, w.id ∈ s.ids
  unique : s.rows.Pairwise fun r x => r.id ≠ x.id
  valid : ∀ r ∈ s.rows, storedCartItems r.items = true
  bounded : ∀ r ∈ s.rows, ∀ i ∈ r.items, i.Bounded s.updates
  current : ∀ w ∈ s.snapshots, ∀ r ∈ s.rows, w.id = r.id →
    w.version ≤ r.version ∧ (w.version = r.version → w.items = r.items)

variable {s t : Carts}

theorem clamp_bounded (b : QuantityBounds) (n : Nat) :
    b.minimumQuantity ≤ b.clamp n ∧ b.clamp n ≤ b.maximumQuantity := by
  have := b.ordered
  unfold QuantityBounds.clamp
  omega

theorem apply_bounded {op : CartOp} {cart items : List StoredCartItem} (h : op.apply cart = .ok items) :
    ∀ i ∈ items, i ∈ cart ∨ i.Bounded [op] := by
  intro i hi
  cases op with
  | sync client bounds =>
    simp only [CartOp.apply] at h
    split at h
    · cases h
    · cases h
      obtain ⟨j, -, hj⟩ := mem_filterMap.mp hi
      obtain ⟨b, hb, rfl⟩ := Option.map_eq_some_iff.mp hj
      exact .inr ⟨_, mem_singleton_self _, b, hb, clamp_bounded b _⟩
  | set id quantity bounds =>
    cases bounds with
    | none => cases h
    | some b =>
      have hset : (⟨id, b.clamp quantity⟩ : StoredCartItem).Bounded [.set id quantity (some b)] :=
        ⟨_, mem_singleton_self _, b, if_pos rfl, clamp_bounded b quantity⟩
      simp only [CartOp.apply] at h
      split at h
      · cases h
        rcases mem_or_eq_of_mem_set hi with hmem | rfl
        · exact .inl hmem
        · exact .inr hset
      · split at h
        · cases h
        · cases h
          rcases mem_append.mp hi with hmem | hmem
          · exact .inl hmem
          · exact .inr (mem_singleton.mp hmem ▸ hset)
  | remove ids =>
    cases h
    exact .inl (mem_of_mem_filter hi)
  | clear =>
    cases h
    cases hi

theorem cartStep_kept (hs : CartsKept s) (h : CartStep s t) : CartsKept t := by
  obtain ⟨a, hread, h⟩ := h
  have hinj : ∀ r ∈ s.rows, ∀ x ∈ s.rows, r.id = x.id → r = x :=
    fun r hr x hx => inj_on_of_nodup_map (pairwise_map.mpr hs.unique) hr hx
  obtain ⟨hids, hknown, hunique, hvalid, hbounded, hcurrent⟩ := hs
  cases a with
  | insert id userId =>
    simp only [Carts.step] at h
    split at h
    · cases h
    · cases h
      constructor <;> grind [storedCartItems]
  | read userId =>
    simp only [Carts.step, Option.map_eq_some_iff] at h
    obtain ⟨r, hr, rfl⟩ := h
    have hmem := mem_of_find?_eq_some hr
    constructor <;> grind [CartRow.snapshot]
  | write cart op expectedVersion =>
    have hcart := hread _ _ _ rfl
    simp only [Carts.step] at h
    split at h
    · next items r happly hr =>
      have hmem := mem_of_find?_eq_some hr
      have hitems := apply_bounded happly
      split at h
      · cases h
        constructor <;> grind [CartRow.snapshot, StoredCartItem.Bounded]
      · cases h
    · cases h
  | delete id =>
    cases h
    constructor <;> grind

theorem run_kept (h : Relation.ReflTransGen CartStep {} s) : CartsKept s := by
  induction h with
  | refl => exact ⟨nofun, nofun, .nil, nofun, nofun, nofun⟩
  | tail _ hstep ih => exact cartStep_kept ih hstep

/-- In every state that is reached the items of a cart are valid and bounded, and an update that hits writes what
the operation makes of the items that stand in the row. -/
theorem cart_updates_kept (h : Relation.ReflTransGen CartStep {} s) :
    (∀ r ∈ s.rows, storedCartItems r.items = true ∧ ∀ i ∈ r.items, i.Bounded s.updates) ∧
      ∀ cart op expectedVersion, cart ∈ s.snapshots → s.step (.write cart op expectedVersion) = some t →
        ∃ r ∈ s.rows, ∃ items, op.apply r.items = .ok items ∧
          t.rows = s.rows.map fun x =>
            if x.id = cart.id then { r with version := r.version + 1, items := items } else x := by
  have hs := run_kept h
  refine ⟨fun r hr => ⟨hs.valid r hr, hs.bounded r hr⟩, fun cart op expectedVersion hcart ht => ?_⟩
  simp only [Carts.step] at ht
  split at ht
  · next items r happly hr =>
    have hmem := mem_of_find?_eq_some hr
    have hfound := find?_some hr
    rw [Bool.and_eq_true, beq_iff_eq, beq_iff_eq] at hfound
    split at ht
    · cases ht
      rw [(hs.current cart hcart r hmem hfound.1.symm).2 hfound.2.symm] at happly
      exact ⟨r, hmem, items, happly, by rw [hfound.1]⟩
    · cases ht
  · cases ht

def threeOfFive : CartOp := .set 5 4 (some ⟨1, 3, by decide⟩)

def openedCarts : Carts := { rows := [⟨1, 7, 1, []⟩], snapshots := [⟨1, 1, []⟩], ids := [1] }

def filledCarts : Carts :=
  { rows := [⟨1, 7, 2, [⟨5, 3⟩]⟩], snapshots := [⟨1, 2, [⟨5, 3⟩]⟩, ⟨1, 1, []⟩], ids := [1], updates := [threeOfFive] }

theorem cart_updates_kept_first : ∃ r ∈ openedCarts.rows, ∃ items, threeOfFive.apply r.items = .ok items ∧
    filledCarts.rows = openedCarts.rows.map fun x =>
      if x.id = 1 then { r with version := r.version + 1, items := items } else x :=
  (cart_updates_kept (s := openedCarts) (.single ⟨.insert 1 7, nofun, rfl⟩)).2 _ _ (some 1) (mem_singleton_self _) rfl

end Gmshop
