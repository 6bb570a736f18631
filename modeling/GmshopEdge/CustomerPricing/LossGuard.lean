import GmshopEdge.Lib.Alone
import GmshopEdge.Db.Schema

/-!
# The loss guard of customer prices

Prices agreed with one customer (`customer-pricing/server/prices.ts`) and the daily guard over them
(`customer-pricing/server/telegram.ts`): a price that loses money over USDT or Alipay is offered to the owner with the
new cost plus the margin it was set with, and an approval writes that price and drops the named Alipay price.

The offer looks at the USDT margin only. A fee larger than the margin and the gap between the list prices keeps the
Alipay price at a loss, and a price that loses over a named Alipay price alone may be lowered.

    no loss after the approval, at no lower price  ↔  the raise covers the price and the fees  (raise_ends_loss)
-/

namespace Gmshop

open List Sql Stmt Relation Option

/-! ## Prices -/

/-- An enabled channel of provider `epay`, with its enabled price of an item. -/
structure EpayChannel where
  channelId : Id
  feeBps : Nat
  priceMinor : Option Minor

/-- A sellable item with the channels that `itemJoins` finds. -/
structure ListedItem where
  priceMinor : Minor
  costMinor : Option Minor
  epay : List EpayChannel

structure ItemAlipay where
  channelId : Id
  priceMinor : Minor
  feeBps : Nat
  deriving DecidableEq

structure PricedItem where
  id : Id
  priceMinor : Minor
  costMinor : Option Minor
  alipay : Option ItemAlipay
  deriving DecidableEq

/-- A row of `customer_item_prices`. -/
structure CustomerPrice where
  id : Id
  userId : Id
  sellableItemId : Id
  minQuantity : Nat
  priceMinor : Minor
  channelPrices : List (Id × Minor)
  costMinorAtSet : Option Minor
  updatedAt : Time

instance : KeyedRow CustomerPrice where
  clash a b := a.id == b.id ||
    (a.userId == b.userId && a.sellableItemId == b.sellableItemId && a.minQuantity == b.minQuantity)
  valid r := decide (1 ≤ r.minQuantity ∧ r.minQuantity ≤ 1000)
  key := CustomerPrice.id
  clash_of_key a b h := by simp [h]

structure CustomerPricing where
  prices : Table CustomerPrice
  items : Id → Option ListedItem

def CustomerPricing.pricesT : TableRef CustomerPricing CustomerPrice :=
  ⟨CustomerPricing.prices, fun s t => { s with prices := t }, fun _ _ => rfl⟩

def presentItem (id : Id) (item : ListedItem) (channel : Option EpayChannel) : PricedItem where
  id := id
  priceMinor := item.priceMinor
  costMinor := item.costMinor
  alipay := channel.bind fun c => c.priceMinor.map fun price => ⟨c.channelId, price, c.feeBps⟩

/-- The rows of `itemJoins` over an item: one for each channel, or one without. -/
def ListedItem.joined (id : Id) (item : ListedItem) : List PricedItem :=
  match item.epay with
  | [] => [presentItem id item none]
  | channels => channels.map fun c => presentItem id item (some c)

def CustomerPricing.joined (s : CustomerPricing) (id : Id) : List PricedItem :=
  match s.items id with
  | none => []
  | some item => item.joined id

def loadPricedItem (s : CustomerPricing) (itemId : Id) : Option PricedItem := (s.joined itemId).head?

/-- Alipay price for a base price: the named one, else the item's usual difference added. -/
def alipayPrice (item : PricedItem) (priceMinor : Minor) (named : Option Minor) : Int :=
  match named, item.alipay with
  | some price, _ => price
  | none, none => priceMinor
  | none, some alipay => (priceMinor : Int) + alipay.priceMinor - item.priceMinor

def marginMinor (priceMinor : Int) (feeBps : Nat) (costMinor : Option Minor) : Option Int :=
  costMinor.map fun (cost : Minor) => Int.tdiv (priceMinor * (10000 - feeBps)) 10000 - cost

/-! ## Setting and deleting -/

structure CustomerPriceInput where
  userId : Id
  itemId : Id
  minQuantity : Nat
  priceMinor : Minor
  alipayMinor : Option Minor

/-- `INSERT … ON CONFLICT(user_id, sellable_item_id, min_quantity) DO UPDATE`. -/
def upsertPrice (row : CustomerPrice) : Stmt CustomerPricing := fun c s =>
  let meets (r : CustomerPrice) : Bool :=
    r.userId == row.userId && r.sellableItemId == row.sellableItemId && r.minQuantity == row.minQuantity
  if s.prices.exist meets then update CustomerPricing.pricesT (fun _ r => meets r) (fun _ r =>
      { r with
        priceMinor := row.priceMinor
        channelPrices := row.channelPrices
        costMinorAtSet := row.costMinorAtSet
        updatedAt := row.updatedAt }) c s
  else insert CustomerPricing.pricesT .abort (fun _ => [row]) c s

/-- The row that `upsertCustomerPrice` binds, from the item that it loaded. -/
def upsertCustomerPrice (loaded : Option PricedItem) (i : CustomerPriceInput) (id : Id) (now : Time) :
    Except DomainError CustomerPrice :=
  match loaded with
  | none => .error ⟨"customer_price_item_missing", 404, "商品规格不存在"⟩
  | some item =>
    if i.alipayMinor.isSome && item.alipay.isNone then
      .error ⟨"customer_price_alipay_missing", 409, "这个规格没有支付宝价，不能单独设置支付宝价"⟩
    else .ok
      { id := id
        userId := i.userId
        sellableItemId := i.itemId
        minQuantity := i.minQuantity
        priceMinor := i.priceMinor
        channelPrices := match i.alipayMinor, item.alipay with
          | some price, some alipay => [(alipay.channelId, price)]
          | _, _ => []
        costMinorAtSet := item.costMinor
        updatedAt := now }

def deleteCustomerPrices (userId itemId : Id) (minQuantity : Option Nat) : Stmt CustomerPricing :=
  delete CustomerPricing.pricesT fun _ r =>
    r.userId == userId && r.sellableItemId == itemId && minQuantity.all (r.minQuantity == ·)

/-! ## The guard -/

structure CustomerPriceRow where
  id : Id
  userId : Id
  itemId : Id
  minQuantity : Nat
  priceMinor : Minor
  alipayMinor : Int
  alipayNamed : Bool
  listPriceMinor : Minor
  listAlipayMinor : Option Minor
  costMinor : Option Minor
  costMinorAtSet : Option Minor
  updatedAt : Time

def CustomerPrice.named (r : CustomerPrice) (item : PricedItem) : Option Minor :=
  item.alipay.bind fun alipay => r.channelPrices.lookup alipay.channelId

def CustomerPrice.listed (r : CustomerPrice) (item : PricedItem) : CustomerPriceRow where
  id := r.id
  userId := r.userId
  itemId := r.sellableItemId
  minQuantity := r.minQuantity
  priceMinor := r.priceMinor
  alipayMinor := alipayPrice item r.priceMinor (r.named item)
  alipayNamed := (r.named item).isSome
  listPriceMinor := item.priceMinor
  listAlipayMinor := item.alipay.map (·.priceMinor)
  costMinor := item.costMinor
  costMinorAtSet := r.costMinorAtSet
  updatedAt := r.updatedAt

/-- In the order of the table: the columns that the query sorts by are not part of the model. -/
def listCustomerPrices (s : CustomerPricing) (userId : Option Id) : List CustomerPriceRow :=
  (s.prices.rows.filter fun r => userId.all (r.userId == ·)).flatMap fun r =>
    (s.joined r.sellableItemId).map r.listed

/-- `raisePayloadSchema`. -/
structure RaisePayload where
  priceId : Id
  priceMinor : Minor
  newPriceMinor : Minor
  deriving DecidableEq

def keptMargin (priceMinor : Minor) (costMinorAtSet : Option Minor) : Nat :=
  match costMinorAtSet with
  | none => 0
  | some cost => priceMinor - cost

/-- The USDT or the Alipay margin is negative; `item` is what `loadPricedItem` finds. -/
def CustomerPriceRow.losing (row : CustomerPriceRow) (item : Option PricedItem) : Bool :=
  let usdt := marginMinor row.priceMinor 0 row.costMinor
  let alipay := (item.bind PricedItem.alipay).bind fun a => marginMinor row.alipayMinor a.feeBps row.costMinor
  usdt.any (· < 0) || alipay.any (· < 0)

def CustomerPriceRow.raise (row : CustomerPriceRow) (costMinor : Minor) : RaisePayload :=
  ⟨row.id, row.priceMinor, costMinor + keptMargin row.priceMinor row.costMinorAtSet⟩

/-- A pass: the remembered costs, the proposals made, and how many of them the owner got. -/
structure LossPass where
  alerted : List (Id × Minor)
  made : List RaisePayload
  proposals : Nat

/-- The loop body, with what `loadPricedItem` finds and whether the owner gets the proposal. -/
def LossPass.look (pass : LossPass) (alerted : Id → Option Minor) (load : CustomerPriceRow → Option PricedItem)
    (sent : RaisePayload → Bool) (row : CustomerPriceRow) : LossPass :=
  match row.costMinor with
  | none => pass
  | some cost =>
    if !row.losing (load row) then pass
    else if alerted row.id = some cost then { pass with alerted := pass.alerted ++ [(row.id, cost)] }
    else
      let payload := row.raise cost
      let pass := { pass with made := pass.made ++ [payload] }
      if sent payload then { pass with proposals := pass.proposals + 1, alerted := pass.alerted ++ [(row.id, cost)] }
      else pass

/-- The items are loaded one by one after the list, so they may be newer. -/
def proposeLosingCustomerPrices (rows : List CustomerPriceRow) (alerted : Id → Option Minor)
    (load : CustomerPriceRow → Option PricedItem) (sent : RaisePayload → Bool) : LossPass :=
  rows.foldl (fun pass row => pass.look alerted load sent row) ⟨[], [], 0⟩

def CustomerPrice.raised (r : CustomerPrice) (newPriceMinor : Minor) (costMinor : Option Minor) (now : Time) :
    CustomerPrice :=
  { r with priceMinor := newPriceMinor, channelPrices := [], costMinorAtSet := costMinor, updatedAt := now }

def approveCustomerPriceRaise (payload : RaisePayload) (now : Time) (s : CustomerPricing) :
    Except (Failure DomainError) CustomerPricing :=
  let changed := update CustomerPricing.pricesT
    (fun _ r => r.id == payload.priceId && r.priceMinor == payload.priceMinor) (fun s r =>
      r.raised payload.newPriceMinor ((s.items r.sellableItemId).bind (·.costMinor)) now) 0 s
  match changed with
  | .error a => .error (.aborted a)
  | .ok (n, t) =>
    if n ≠ 1 then .error (.thrown ⟨"customer_price_changed", 409, "这条专属价已经改过或删掉了"⟩) else .ok t

/-! ## The item of a price -/

def CustomerPricing.PriceOf (id itemId : Id) (s : CustomerPricing) : Prop :=
  ∀ r ∈ s.prices.rows, r.id = id → r.sellableItemId = itemId

/-- What may happen around row `id`. A new row has an id of its own; what a call binds may have been read before. -/
inductive PriceStep (id : Id) : CustomerPricing → CustomerPricing → Prop
  | set {row : CustomerPrice} {n : Nat} {s t : CustomerPricing} (hnew : row.id ≠ id)
      (h : upsertPrice row 0 s = .ok (n, t)) : PriceStep id s t
  | delete {userId itemId : Id} {minQuantity : Option Nat} {n : Nat} {s t : CustomerPricing}
      (h : deleteCustomerPrices userId itemId minQuantity 0 s = .ok (n, t)) : PriceStep id s t
  | raise {payload : RaisePayload} {now : Time} {s t : CustomerPricing}
      (h : approveCustomerPriceRaise payload now s = .ok t) : PriceStep id s t
  /-- The rows of a customer or an item that is deleted go with it. -/
  | cascade {gone : CustomerPrice → Bool} {n : Nat} {s t : CustomerPricing}
      (h : Stmt.delete CustomerPricing.pricesT (fun _ r => gone r) 0 s = .ok (n, t)) : PriceStep id s t
  | edit (items : Id → Option ListedItem) {s : CustomerPricing} : PriceStep id s { s with items := items }

section PriceOf

variable {id itemId : Id} {s t : CustomerPricing}

theorem CustomerPricing.PriceOf.map {f : CustomerPrice → CustomerPrice} (h : s.PriceOf id itemId)
    (hrows : t.prices.rows = s.prices.rows.map f)
    (hf : ∀ r, (f r).id = r.id ∧ (f r).sellableItemId = r.sellableItemId) : t.PriceOf id itemId := by
  intro r hr hid
  rw [hrows] at hr
  obtain ⟨r₀, hr₀, rfl⟩ := mem_map.mp hr
  rw [(hf r₀).2]
  exact h r₀ hr₀ ((hf r₀).1.symm.trans hid)

theorem CustomerPricing.PriceOf.filter {gone : CustomerPrice → Bool} {n : Nat} (h : s.PriceOf id itemId)
    (hst : Stmt.delete CustomerPricing.pricesT (fun _ r => gone r) 0 s = .ok (n, t)) : t.PriceOf id itemId := by
  obtain ⟨-, table, hrows, rfl⟩ := delete_ok hst
  intro r hr hid
  have hr : r ∈ table.rows := hr
  rw [hrows] at hr
  exact h r (mem_filter.mp hr).1 hid

theorem approveCustomerPriceRaise_ok {payload : RaisePayload} {now : Time}
    (h : approveCustomerPriceRaise payload now s = .ok t) :
    ∃ r ∈ s.prices.rows, r.id = payload.priceId ∧ r.priceMinor = payload.priceMinor ∧
      ∃ table : Table CustomerPrice, t = { s with prices := table } ∧
        table.rows = s.prices.rows.map fun x => if x.id = payload.priceId then
          x.raised payload.newPriceMinor ((s.items x.sellableItemId).bind (·.costMinor)) now else x := by
  unfold approveCustomerPriceRaise at h
  dsimp only at h
  split at h
  · cases h
  · next n t' hupdate =>
    split at h
    · cases h
    · next hn =>
      cases h
      have hone : n ≠ 0 := by omega
      obtain ⟨-, r, table, hr, hprice, hrows, rfl⟩ := update_key_hit (k := payload.priceId)
        (p := fun _ (r : CustomerPrice) => r.priceMinor == payload.priceMinor) hupdate hone
      exact ⟨r, Table.get?_mem hr, Table.get?_key hr, beq_iff_eq.mp hprice, table, rfl, hrows⟩

theorem PriceStep.priceOf (hstep : PriceStep id s t) (h : s.PriceOf id itemId) : t.PriceOf id itemId := by
  cases hstep with
  | set hnew hst =>
    unfold upsertPrice at hst
    dsimp only at hst
    split at hst
    · obtain ⟨-, table, hrows, rfl⟩ := update_ok hst
      exact h.map hrows fun r => by split <;> exact ⟨rfl, rfl⟩
    · obtain ⟨-, table, hrows, rfl⟩ := insert_abort_ok hst
      intro r hr hid
      have hr : r ∈ table.rows := hr
      rw [hrows] at hr
      rcases mem_append.mp hr with hr | hr
      · exact h r hr hid
      · rw [mem_singleton.mp hr] at hid
        exact absurd hid hnew
  | delete hst => exact h.filter hst
  | raise hst =>
    obtain ⟨-, -, -, -, table, rfl, hrows⟩ := approveCustomerPriceRaise_ok hst
    exact h.map hrows fun r => by split <;> exact ⟨rfl, rfl⟩
  | cascade hst => exact h.filter hst
  | edit items => exact h

theorem PriceStep.priceOf_run (hrun : ReflTransGen (PriceStep id) s t) (h : s.PriceOf id itemId) :
    t.PriceOf id itemId := by
  induction hrun with
  | refl => exact h
  | tail _ hstep ih => exact hstep.priceOf ih

end PriceOf

/-! ## The proposals -/

variable {load : CustomerPriceRow → Option PricedItem} {p : RaisePayload} {row : CustomerPriceRow}
  {alerted : Id → Option Minor} {sent : RaisePayload → Bool} {s : CustomerPricing} {id : Id}
  {item : ListedItem} {cost : Nat}

theorem LossPass.look_made {pass : LossPass} (hp : p ∈ (pass.look alerted load sent row).made) :
    p ∈ pass.made ∨ ∃ cost, row.costMinor = some cost ∧ row.losing (load row) = true ∧ p = row.raise cost := by
  unfold LossPass.look at hp
  split at hp
  · exact Or.inl hp
  · next cost hcost =>
    split at hp
    · exact Or.inl hp
    · next hlosing =>
      split at hp
      · exact Or.inl hp
      · have hp : p ∈ pass.made ++ [row.raise cost] := by
          dsimp only at hp
          split at hp <;> exact hp
        rcases mem_append.mp hp with hp | hp
        · exact Or.inl hp
        · exact Or.inr ⟨cost, hcost, by simpa using hlosing, mem_singleton.mp hp⟩

theorem mem_proposeLosingCustomerPrices {rows : List CustomerPriceRow}
    (hp : p ∈ (proposeLosingCustomerPrices rows alerted load sent).made) :
    ∃ row ∈ rows, ∃ cost, row.costMinor = some cost ∧ row.losing (load row) = true ∧ p = row.raise cost := by
  have hfold : ∀ pass : LossPass, p ∈ (rows.foldl (fun pass row => pass.look alerted load sent row) pass).made →
      p ∈ pass.made ∨
        ∃ row ∈ rows, ∃ cost, row.costMinor = some cost ∧ row.losing (load row) = true ∧ p = row.raise cost := by
    clear hp
    induction rows with
    | nil => exact fun pass hp => Or.inl hp
    | cons row rows ih =>
      intro pass hp
      rcases ih _ hp with hp | ⟨row', hrow', hraise⟩
      · rcases LossPass.look_made hp with hp | hraise
        · exact Or.inl hp
        · exact Or.inr ⟨row, mem_cons_self, hraise⟩
      · exact Or.inr ⟨row', mem_cons_of_mem _ hrow', hraise⟩
  rcases hfold _ hp with hp | hraise
  · cases hp
  · exact hraise

theorem mem_listCustomerPrices {userId : Option Id} (h : row ∈ listCustomerPrices s userId) :
    ∃ r ∈ s.prices.rows, ∃ item ∈ s.joined r.sellableItemId, row = r.listed item := by
  obtain ⟨r, hr, hrow⟩ := mem_flatMap.mp h
  obtain ⟨item, hitem, rfl⟩ := mem_map.mp hrow
  exact ⟨r, (mem_filter.mp hr).1, item, hitem, rfl⟩

theorem CustomerPricing.mem_joined {priced : PricedItem} (h : priced ∈ s.joined id) :
    ∃ item channel, s.items id = some item ∧ (∀ c ∈ channel, c ∈ item.epay) ∧
      priced = presentItem id item channel := by
  unfold CustomerPricing.joined at h
  split at h
  · cases h
  · next item hitem =>
    unfold ListedItem.joined at h
    split at h
    · exact ⟨item, none, hitem, nofun, mem_singleton.mp h⟩
    · obtain ⟨c, hc, rfl⟩ := mem_map.mp h
      exact ⟨item, some c, hitem, fun _ hx => mem_some.mp hx ▸ hc, rfl⟩

theorem CustomerPricing.joined_of (hitem : s.items id = some item) :
    (∃ channel, presentItem id item channel ∈ s.joined id) ∧
      ∀ c ∈ item.epay, presentItem id item (some c) ∈ s.joined id := by
  unfold CustomerPricing.joined
  rw [hitem]
  dsimp only
  unfold ListedItem.joined
  split
  · next hnone =>
    rw [hnone]
    exact ⟨⟨none, mem_singleton_self _⟩, nofun⟩
  · next hsome =>
    have hmem : ∀ c ∈ item.epay, presentItem id item (some c) ∈ item.epay.map fun c => presentItem id item (some c) :=
      fun c hc => mem_map_of_mem hc
    obtain ⟨c, hc⟩ := exists_mem_of_ne_nil _ hsome
    exact ⟨⟨some c, hmem c hc⟩, hmem⟩

/-! ## After the approval -/

/-- Neither margin of the row is negative on any of the joined rows of its item. -/
def CustomerPricing.NoLoss (s : CustomerPricing) (r : CustomerPrice) : Prop :=
  ∀ item ∈ s.joined r.sellableItemId, (∀ m ∈ marginMinor r.priceMinor 0 item.costMinor, 0 ≤ m) ∧
      ∀ alipay ∈ item.alipay,
        ∀ m ∈ marginMinor (alipayPrice item r.priceMinor (r.named item)) alipay.feeBps item.costMinor, 0 ≤ m

/-- The cost with the kept margin is no less than the price, and over each channel, with the gap between the list
prices, no less than the cost after the fee. -/
def RaiseCovers (item : ListedItem) (r : CustomerPrice) : Prop :=
  ∀ cost ∈ item.costMinor, r.priceMinor ≤ cost + keptMargin r.priceMinor r.costMinorAtSet ∧
      ∀ channel ∈ item.epay, ∀ listAlipay ∈ channel.priceMinor,
        (cost : Int) ≤ Int.tdiv (((cost + keptMargin r.priceMinor r.costMinorAtSet : Nat) + (listAlipay : Int)
          - item.priceMinor) * (10000 - channel.feeBps)) 10000

theorem marginMinor_usdt (price cost : Nat) : marginMinor price 0 (some cost) = some ((price : Int) - cost) := by
  have hnet : Int.tdiv ((price : Int) * (10000 - (0 : Nat))) 10000 = price := by
    show Int.tdiv ((price : Int) * 10000) 10000 = price
    exact Int.mul_tdiv_cancel _ (by decide)
  unfold marginMinor
  rw [map_some, hnet]

theorem marginMinor_nonneg {price : Int} {feeBps : Nat} :
    (∀ m ∈ marginMinor price feeBps (some cost), 0 ≤ m) ↔ (cost : Int) ≤ Int.tdiv (price * (10000 - feeBps)) 10000 := by
  unfold marginMinor
  rw [map_some]
  constructor
  · intro h
    have := h _ rfl
    omega
  · rintro h m hm
    rw [← mem_some.mp hm]
    omega

theorem noLoss_iff {r : CustomerPrice} (hitem : s.items r.sellableItemId = some item)
    (hcost : item.costMinor = some cost) (hnone : r.channelPrices = []) :
    s.NoLoss r ↔ cost ≤ r.priceMinor ∧ ∀ channel ∈ item.epay, ∀ listAlipay ∈ channel.priceMinor,
      (cost : Int) ≤ Int.tdiv (((r.priceMinor : Int) + listAlipay - item.priceMinor) * (10000 - channel.feeBps)) 10000 := by
  have hnamed : ∀ priced : PricedItem, r.named priced = none := fun priced => by
    unfold CustomerPrice.named
    rw [hnone]
    cases priced.alipay <;> rfl
  obtain ⟨⟨first, hfirst⟩, hall⟩ := CustomerPricing.joined_of hitem
  constructor
  · intro h
    constructor
    · have husdt := (h _ hfirst).1
      rw [presentItem, hcost, marginMinor_usdt] at husdt
      have := husdt _ rfl
      omega
    · intro channel hchannel listAlipay hlist
      have halipay := (h _ (hall channel hchannel)).2 ⟨channel.channelId, listAlipay, channel.feeBps⟩
        (by rw [presentItem, bind_some, mem_def.mp hlist]; rfl)
      rw [hnamed, presentItem, hcost, marginMinor_nonneg, bind_some, mem_def.mp hlist] at halipay
      exact halipay
  · rintro ⟨hprice, hchannels⟩ priced hpriced
    obtain ⟨item', channel, hitem', hchannel, rfl⟩ := CustomerPricing.mem_joined hpriced
    obtain rfl : item = item' := some.inj (hitem.symm.trans hitem')
    constructor
    · rw [presentItem, hcost, marginMinor_usdt]
      rintro m hm
      rw [← mem_some.mp hm]
      omega
    · intro alipay halipay
      cases channel with
      | none => cases halipay
      | some c =>
        obtain ⟨price, hlist, rfl⟩ := map_eq_some_iff.mp (show c.priceMinor.map _ = some alipay from halipay)
        rw [hnamed, presentItem, hcost, marginMinor_nonneg, bind_some, hlist]
        exact hchannels c (hchannel c rfl) price hlist

/-- The offer that a pass made is approved later, with the same item. What happened in between is any run of calls.
The row makes no loss then, at no lower price, iff the raise covers the price and the fees. -/
theorem raise_ends_loss {s t t' : CustomerPricing} {userId : Option Id} {alerted : Id → Option Minor}
    {load : CustomerPriceRow → Option PricedItem} {sent : RaisePayload → Bool} {p : RaisePayload} {now : Time}
    {r : CustomerPrice} {item : ListedItem}
    (hp : p ∈ (proposeLosingCustomerPrices (listCustomerPrices s userId) alerted load sent).made)
    (hr : r ∈ s.prices.rows) (hid : r.id = p.priceId) (hitem : s.items r.sellableItemId = some item)
    (hrun : ReflTransGen (PriceStep p.priceId) s t) (hsame : t.items r.sellableItemId = s.items r.sellableItemId)
    (happrove : approveCustomerPriceRaise p now t = .ok t') :
    (∃ r' ∈ t'.prices.rows, r'.id = p.priceId ∧ p.priceMinor ≤ r'.priceMinor ∧ t'.NoLoss r') ↔ RaiseCovers item r := by
  obtain ⟨row, hrow, cost, hcost, -, hraise⟩ := mem_proposeLosingCustomerPrices hp
  obtain ⟨r₀, hr₀, priced, hpriced, rfl⟩ := mem_listCustomerPrices hrow
  have hp₀ : p.priceId = r₀.id := congrArg RaisePayload.priceId hraise
  obtain rfl : r₀ = r := Table.eq_of_key hr₀ hr (hid.trans hp₀).symm
  obtain ⟨item', channel, hitem', -, rfl⟩ := CustomerPricing.mem_joined hpriced
  obtain rfl : item = item' := some.inj (hitem.symm.trans hitem')
  have hcost : item.costMinor = some cost := hcost
  have hold : p.priceMinor = r₀.priceMinor := congrArg RaisePayload.priceMinor hraise
  have hnew : p.newPriceMinor = cost + keptMargin r₀.priceMinor r₀.costMinorAtSet :=
    congrArg RaisePayload.newPriceMinor hraise
  -- the row under the id is still a price of this item
  have hof : t.PriceOf p.priceId r₀.sellableItemId := PriceStep.priceOf_run hrun fun x hx hxid =>
    congrArg CustomerPrice.sellableItemId (Table.eq_of_key hx hr₀ (hxid.trans hp₀))
  obtain ⟨x, hx, hxid, -, table, rfl, hrows⟩ := approveCustomerPriceRaise_ok happrove
  have hraised : ∀ y ∈ t.prices.rows, y.id = p.priceId → ∀ c, ((CustomerPricing.mk table t.items).NoLoss
      (y.raised p.newPriceMinor c now) ↔ cost ≤ p.newPriceMinor ∧
        ∀ channel ∈ item.epay, ∀ listAlipay ∈ channel.priceMinor, (cost : Int) ≤
          Int.tdiv (((p.newPriceMinor : Int) + listAlipay - item.priceMinor) * (10000 - channel.feeBps)) 10000) := by
    intro y hy hyid c
    refine noLoss_iff ?_ hcost rfl
    show t.items y.sellableItemId = some item
    rw [hof y hy hyid, hsame, hitem]
  constructor
  · rintro ⟨r', hr', hid', hle, hno⟩ c hc
    obtain rfl : cost = c := some.inj (hcost.symm.trans hc)
    have hr' : r' ∈ table.rows := hr'
    rw [hrows] at hr'
    obtain ⟨y, hy, rfl⟩ := mem_map.mp hr'
    have hyid : y.id = p.priceId := by
      by_contra hne
      rw [if_neg hne] at hid'
      exact hne hid'
    rw [if_pos hyid] at hle hno
    rw [← hnew, ← hold]
    exact ⟨hle, ((hraised y hy hyid _).mp hno).2⟩
  · intro hcovers
    obtain ⟨hprice, hchannels⟩ := hcovers cost hcost
    rw [← hnew] at hprice hchannels
    have hmem := mem_map_of_mem (f := fun y : CustomerPrice => if y.id = p.priceId then
      y.raised p.newPriceMinor ((t.items y.sellableItemId).bind (·.costMinor)) now else y) hx
    rw [if_pos hxid, ← hrows] at hmem
    have hcovered : cost ≤ p.newPriceMinor := hnew ▸ Nat.le_add_right _ _
    exact ⟨_, hmem, hxid, hold.trans_le hprice, (hraised x hx hxid _).mpr ⟨hcovered, hchannels⟩⟩

/-! ### A price with no margin -/

/-- A price of 8.50 for an item that costs 9.00 by now, set at a cost of 8.60; Alipay takes 5 percent. -/
def noMarginPricing : CustomerPricing where
  prices := Table.of
    [{ id := 1, userId := 7, sellableItemId := 3, minQuantity := 1, priceMinor := 850, channelPrices := []
       costMinorAtSet := some 860, updatedAt := 0 }]
  items := fun id => if id = 3 then some ⟨1000, some 900, [⟨5, 500, some 1000⟩]⟩ else none

def noMarginRaise : RaisePayload := ⟨1, 850, 900⟩

def noMarginRaised : CustomerPricing where
  prices := Table.of
    [{ id := 1, userId := 7, sellableItemId := 3, minQuantity := 1, priceMinor := 900, channelPrices := []
       costMinorAtSet := some 900, updatedAt := 10 }]
  items := noMarginPricing.items

theorem noMargin_proposed : noMarginRaise ∈ (proposeLosingCustomerPrices (listCustomerPrices noMarginPricing none)
    (fun _ => none) (fun row => loadPricedItem noMarginPricing row.itemId) fun _ => true).made := by decide

theorem noMargin_approved : approveCustomerPriceRaise noMarginRaise 10 noMarginPricing = .ok noMarginRaised := rfl

theorem noMargin_stays : ¬∃ r ∈ noMarginRaised.prices.rows, r.id = noMarginRaise.priceId ∧
    noMarginRaise.priceMinor ≤ r.priceMinor ∧ noMarginRaised.NoLoss r := by
  rintro ⟨r, hr, -, -, hno⟩
  rw [mem_singleton.mp hr] at hno
  have halipay := (hno ⟨3, 1000, some 900, some ⟨5, 1000, 500⟩⟩ (by decide)).2 ⟨5, 1000, 500⟩ rfl (-45) (by decide)
  omega

/-- Not every approved raise ends the loss. -/
theorem raise_still_loses : ¬∀ (s t' : CustomerPricing) (alerted : Id → Option Minor) (sent : RaisePayload → Bool)
    (p : RaisePayload) (now : Time), p ∈ (proposeLosingCustomerPrices (listCustomerPrices s none) alerted
        (fun row => loadPricedItem s row.itemId) sent).made →
      (∀ id item, s.items id = some item → ∀ c ∈ item.epay, c.feeBps < 10000) →
      approveCustomerPriceRaise p now s = .ok t' →
      ∃ r ∈ t'.prices.rows, r.id = p.priceId ∧ p.priceMinor ≤ r.priceMinor ∧ t'.NoLoss r := by
  intro hclaim
  refine noMargin_stays (hclaim noMarginPricing noMarginRaised (fun _ => none) (fun _ => true) noMarginRaise 10
    noMargin_proposed ?_ noMargin_approved)
  intro id item hitem c hc
  have hitem : (if id = 3 then some (⟨1000, some 900, [⟨5, 500, some 1000⟩]⟩ : ListedItem) else none) = some item := hitem
  split at hitem
  · cases hitem
    rw [mem_singleton.mp hc]
    decide
  · cases hitem

/-- The theorem on the price with no margin. -/
theorem raise_ends_loss_noMargin : ¬RaiseCovers ⟨1000, some 900, [⟨5, 500, some 1000⟩]⟩
    { id := 1, userId := 7, sellableItemId := 3, minQuantity := 1, priceMinor := 850, channelPrices := []
      costMinorAtSet := some 860, updatedAt := 0 } :=
  fun hcovers => noMargin_stays ((raise_ends_loss noMargin_proposed (mem_singleton_self _) rfl rfl .refl rfl
    noMargin_approved).mpr hcovers)

end Gmshop
