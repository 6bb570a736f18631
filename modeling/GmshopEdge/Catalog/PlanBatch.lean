import GmshopEdge.Catalog.PricingGuard

/-!
# What a plan's batch does

The first statement rewrites the item when it is as the row says; every later one acts when the item has the next
version and the plan's price. So a batch that finds the item rewrites the whole plan (`planStatements_hit`), and
one that finds neither the item as it was nor a landed plan changes nothing (`planStatements_idle`).
-/

namespace Gmshop

open List Sql Stmt

/-! ## The rows that a plan writes -/

def ItemRow.priced (row : ItemRow) (plan : PricePlan) (context : PlanContext) (i : CatalogItem) : CatalogItem :=
  if i.id = row.id then
    { i with priceMinor := plan.usdtNew, version := i.version + 1
             costMinor := context.supplierMinor <|> i.costMinor }
  else i

def setIfNamed (named : Option Id) (price : Option Nat) (r : ChannelPrice) : ChannelPrice :=
  if named = some r.id then { r with priceMinor := price.getD r.priceMinor } else r

def ItemRow.pricedChannel (row : ItemRow) (plan : PricePlan) (r : ChannelPrice) : ChannelPrice :=
  setIfNamed row.alipayPriceId plan.alipayNew (setIfNamed row.usdtPriceId (some plan.usdtNew) r)

def ItemRow.pricedListing (row : ItemRow) (plan : PricePlan) (r : ExportListing) : ExportListing :=
  if row.agentListingId = some r.id ∧ plan.agentOld = some r.priceMinor then
    { r with priceMinor := plan.agentNew.getD r.priceMinor }
  else r

def ItemRow.bumped (row : ItemRow) (p : CatalogProduct) : CatalogProduct :=
  if p.id = row.productId then { p with revision := p.revision + 1, changes := p.changes + 1 } else p

structure PlanEffect (row : ItemRow) (plan : PricePlan) (context : PlanContext) (s t : Catalog) : Prop where
  items : t.items.rows = s.items.rows.map (row.priced plan context)
  channelPrices : t.channelPrices.rows = s.channelPrices.rows.map (row.pricedChannel plan)
  listings : t.listings.rows = s.listings.rows.map (row.pricedListing plan)
  products : t.products.rows = s.products.rows.map row.bumped
  audits : t.audits = s.audits ++ [planAudit row plan context]
  others : t.media = s.media ∧ t.referenced = s.referenced ∧ t.removed = s.removed

section Rows

variable {row : ItemRow} {plan : PricePlan} {context : PlanContext}

theorem priced_id (i : CatalogItem) : (row.priced plan context i).id = i.id := by
  unfold ItemRow.priced
  split <;> rfl

theorem priced_hit {i : CatalogItem} (h : i.id = row.id) :
    (row.priced plan context i).priceMinor = plan.usdtNew ∧ (row.priced plan context i).version = i.version + 1 := by
  unfold ItemRow.priced
  rw [if_pos h]
  exact ⟨rfl, rfl⟩

theorem priced_other {i : CatalogItem} (h : i.id ≠ row.id) : row.priced plan context i = i := if_neg h

theorem setIfNamed_id (named price : Option Nat) (r : ChannelPrice) : (setIfNamed named price r).id = r.id := by
  unfold setIfNamed
  split <;> rfl

theorem pricedChannel_id (r : ChannelPrice) : (row.pricedChannel plan r).id = r.id :=
  (setIfNamed_id _ _ _).trans (setIfNamed_id _ _ _)

theorem pricedListing_id (r : ExportListing) : (row.pricedListing plan r).id = r.id := by
  unfold ItemRow.pricedListing
  split <;> rfl

end Rows

/-! ## Segments -/

variable {row : ItemRow} {plan : PricePlan} {context : PlanContext}

variable {s t : Catalog} {c : Nat} {ns : List Nat}

theorem planHits_iff : planHits s row = true ↔
    ∃ i, s.items.get? row.id = some i ∧ i.version = row.version ∧ i.priceMinor = row.priceMinor := by
  unfold planHits
  rw [Option.any_eq_true]
  simp only [Bool.and_eq_true, beq_iff_eq]

theorem planLanded_iff : planLanded s row plan = true ↔
    ∃ i ∈ s.items.rows, i.id = row.id ∧ i.version = row.version + 1 ∧ i.priceMinor = plan.usdtNew := by
  unfold planLanded
  rw [Table.exist_iff]
  simp only [Bool.and_eq_true, beq_iff_eq, and_assoc]

variable {n : Nat}

theorem setItemPrice_hit (hhit : planHits s row = true) (h : setItemPrice row plan context c s = .ok (n, t)) :
    n = 1 ∧ planLanded t row plan = true ∧
      ∃ table, table.rows = s.items.rows.map (row.priced plan context) ∧ t = { s with items := table } := by
  obtain ⟨i, hi, hversion, hprice⟩ := (planHits_iff).mp hhit
  rcases update_key_cases (k := row.id) (q := fun i => i.version == row.version && i.priceMinor == row.priceMinor)
      (fun _ => rfl) h with ⟨-, hmiss, -⟩ | ⟨rfl, -, table, -, -, hrows, rfl⟩
  · have := hmiss i hi
    simp [hversion, hprice] at this
  · have hid : i.id = row.id := Table.get?_key hi
    obtain ⟨hnew, hnext⟩ := @priced_hit row plan context i hid
    refine ⟨rfl, (planLanded_iff).mpr ⟨row.priced plan context i, ?_, ?_, ?_, hnew⟩, table, hrows, rfl⟩
    · show _ ∈ table.rows
      rw [hrows]
      exact mem_map_of_mem (Table.get?_mem hi)
    · rw [priced_id, hid]
    · rw [hnext, hversion]

theorem setItemPrice_miss (hmiss : planHits s row = false) (h : setItemPrice row plan context c s = .ok (n, t)) :
    n = 0 ∧ t = s := by
  rcases update_key_cases (k := row.id) (q := fun i => i.version == row.version && i.priceMinor == row.priceMinor)
      (fun _ => rfl) h with ⟨hn, -, ht⟩ | ⟨-, i, -, hi, has, -⟩
  · exact ⟨hn, ht⟩
  · rw [Bool.and_eq_true, beq_iff_eq, beq_iff_eq] at has
    rw [(planHits_iff).mpr ⟨i, hi, has⟩] at hmiss
    cases hmiss

theorem setChannelPrice_landed {id price : Nat} (h : setChannelPrice row plan id price c s = .ok (n, t))
    (hland : planLanded s row plan = true) :
    ∃ table, table.rows = s.channelPrices.rows.map (setIfNamed (some id) (some price)) ∧
      t = { s with channelPrices := table } := by
  obtain ⟨-, table, hrows, rfl⟩ := update_ok h
  refine ⟨table, hrows.trans (map_congr_left fun r _ => ?_), rfl⟩
  unfold setIfNamed
  by_cases hid : r.id = id
  · rw [if_pos (by simp [hid, hland]), if_pos (congrArg some hid.symm)]
    rfl
  · rw [if_neg (by simp [hid]), if_neg fun hsome => hid (Option.some.inj hsome).symm]

theorem setAgentPrice_landed {id old new : Nat} (h : setAgentPrice row plan id old new c s = .ok (n, t))
    (hland : planLanded s row plan = true) :
    ∃ table, table.rows = s.listings.rows.map (fun r =>
        if some id = some r.id ∧ some old = some r.priceMinor then { r with priceMinor := new } else r) ∧
      t = { s with listings := table } := by
  obtain ⟨-, table, hrows, rfl⟩ := update_ok h
  refine ⟨table, hrows.trans (map_congr_left fun r _ => ?_), rfl⟩
  refine if_congr ?_ rfl rfl
  rw [hland, Bool.and_true, Bool.and_eq_true, beq_iff_eq, beq_iff_eq, Option.some.injEq, Option.some.injEq]
  exact and_congr eq_comm eq_comm

theorem segment_nil (h : batch [] c s = .ok (ns, t)) : t = s :=
  batch_idle (fun _ hst => absurd hst not_mem_nil) h

theorem usdtSegment
    (h : batch (row.usdtPriceId.toList.map fun id => setChannelPrice row plan id plan.usdtNew) c s = .ok (ns, t))
    (hland : planLanded s row plan = true) :
    ∃ table, table.rows = s.channelPrices.rows.map (setIfNamed row.usdtPriceId (some plan.usdtNew)) ∧
      t = { s with channelPrices := table } := by
  cases hid : row.usdtPriceId with
  | none =>
    rw [hid] at h
    exact ⟨s.channelPrices, (map_id' s.channelPrices.rows).symm, segment_nil h⟩
  | some id =>
    rw [hid] at h
    obtain ⟨n, hst, -⟩ := batch_single_ok h
    exact setChannelPrice_landed hst hland

theorem alipaySegment (h : batch (match row.alipayPriceId, plan.alipayNew with
      | some id, some price => [setChannelPrice row plan id price]
      | _, _ => []) c s = .ok (ns, t)) (hland : planLanded s row plan = true) :
    ∃ table, table.rows = s.channelPrices.rows.map (setIfNamed row.alipayPriceId plan.alipayNew) ∧
      t = { s with channelPrices := table } := by
  split at h
  · next id price hid hprice =>
    rw [hid, hprice]
    obtain ⟨n, hst, -⟩ := batch_single_ok h
    exact setChannelPrice_landed hst hland
  · next hnone =>
    refine ⟨s.channelPrices, ?_, segment_nil h⟩
    have hsame : setIfNamed row.alipayPriceId plan.alipayNew = fun r => r := by
      funext r
      cases hid : row.alipayPriceId with
      | none => rfl
      | some id =>
        cases hprice : plan.alipayNew with
        | none => exact ite_self r
        | some price => exact absurd hprice (hnone id price hid)
    rw [hsame, map_id']

theorem agentSegment (h : batch (match row.agentListingId, plan.agentNew, plan.agentOld with
      | some id, some new, some old => [setAgentPrice row plan id old new]
      | _, _, _ => []) c s = .ok (ns, t)) (hland : planLanded s row plan = true) :
    ∃ table, table.rows = s.listings.rows.map (row.pricedListing plan) ∧ t = { s with listings := table } := by
  split at h
  · next id new old hid hnew hold =>
    obtain ⟨n, hst, -⟩ := batch_single_ok h
    obtain ⟨table, hrows, ht⟩ := setAgentPrice_landed hst hland
    refine ⟨table, hrows.trans (map_congr_left fun r _ => ?_), ht⟩
    unfold ItemRow.pricedListing
    rw [hid, hnew, hold]
    rfl
  · next hnone =>
    refine ⟨s.listings, ?_, segment_nil h⟩
    have hsame : row.pricedListing plan = fun r => r := by
      funext r
      unfold ItemRow.pricedListing
      split
      · next hnamed =>
        cases hnew : plan.agentNew with
        | none => rfl
        | some new => exact absurd hnamed.2 (hnone r.id new r.priceMinor hnamed.1 hnew)
      · rfl
    rw [hsame, map_id']

theorem bumpProduct_landed (h : bumpProduct row plan c s = .ok (n, t)) (hland : planLanded s row plan = true) :
    ∃ table, table.rows = s.products.rows.map row.bumped ∧ t = { s with products := table } := by
  obtain ⟨-, table, hrows, rfl⟩ := update_ok h
  refine ⟨table, hrows.trans (map_congr_left fun p _ => ?_), rfl⟩
  unfold ItemRow.bumped
  refine if_congr ?_ rfl rfl
  rw [hland, Bool.and_true, beq_iff_eq]

theorem auditPlan_landed (h : auditPlan row plan context c s = .ok (n, t))
    (hland : planLanded s row plan = true) : t = { s with audits := s.audits ++ [planAudit row plan context] } := by
  unfold auditPlan at h
  rw [if_pos hland, if_pos hland] at h
  exact (Prod.mk.inj (Except.ok.inj h)).2.symm

theorem later_idle {st : Stmt Catalog} (hland : planLanded s row plan = false)
    (hst : st ∈ (planStatements row plan context).tail) (h : st c s = .ok (n, t)) : t = s := by
  have hmem : (∃ id, st = setChannelPrice row plan id plan.usdtNew) ∨
      (∃ id price, st = setChannelPrice row plan id price) ∨ (∃ id old new, st = setAgentPrice row plan id old new) ∨
      st = bumpProduct row plan ∨ st = auditPlan row plan context := by
    unfold planStatements at hst
    simp only [cons_append, tail_cons, mem_append, mem_map, mem_cons] at hst
    rcases hst with ((⟨id, -, rfl⟩ | halipay) | hagent) | rfl | rfl | hnil
    · exact Or.inl ⟨id, rfl⟩
    · split at halipay
      · exact Or.inr (Or.inl ⟨_, _, mem_singleton.mp halipay⟩)
      · cases halipay
    · split at hagent
      · exact Or.inr (Or.inr (Or.inl ⟨_, _, _, mem_singleton.mp hagent⟩))
      · cases hagent
    · exact Or.inr (Or.inr (Or.inr (Or.inl rfl)))
    · exact Or.inr (Or.inr (Or.inr (Or.inr rfl)))
    · cases hnil
  rcases hmem with ⟨id, rfl⟩ | ⟨id, price, rfl⟩ | ⟨id, old, new, rfl⟩ | rfl | rfl
  · exact update_miss h fun r _ => by rw [hland, Bool.and_false]
  · exact update_miss h fun r _ => by rw [hland, Bool.and_false]
  · exact update_miss h fun r _ => by rw [hland, Bool.and_false, Bool.and_false]
  · exact update_miss h fun p _ => by rw [hland, Bool.and_false]
  · unfold auditPlan at h
    rw [hland] at h
    obtain ⟨-, rfl⟩ := Prod.mk.inj (Except.ok.inj h)
    rw [if_neg Bool.false_ne_true, append_nil]

/-! ## The batch -/

theorem planStatements_hit (hhit : planHits s row = true)
    (h : batch (planStatements row plan context) c s = .ok (ns, t)) :
    planApplied ns = true ∧ PlanEffect row plan context s t := by
  unfold planStatements at h
  obtain ⟨ns4, s4, ns5, hfirst, hlast, rfl⟩ := batch_append_ok h
  obtain ⟨ns3, s3, ms3, hchannels, hagent, rfl⟩ := batch_append_ok hfirst
  obtain ⟨ns2, s2, ms2, hstart, halipay, rfl⟩ := batch_append_ok hchannels
  obtain ⟨n, s1, ms1, hitem, husdt, rfl⟩ := batch_cons_ok hstart
  obtain ⟨m, s5, ms, hbump, hrest, -⟩ := batch_cons_ok hlast
  obtain ⟨k, haudit, -⟩ := batch_single_ok hrest
  obtain ⟨rfl, hland, items, hitems, rfl⟩ := setItemPrice_hit hhit hitem
  -- the items stay as the first statement left them, so the plan stays landed
  obtain ⟨channels, hchannel, rfl⟩ := usdtSegment husdt hland
  obtain ⟨channels', hchannel', rfl⟩ := alipaySegment halipay hland
  obtain ⟨listings, hlistings, rfl⟩ := agentSegment hagent hland
  obtain ⟨products, hproducts, rfl⟩ := bumpProduct_landed hbump hland
  obtain rfl := auditPlan_landed haudit hland
  refine ⟨rfl, hitems, ?_, hlistings, hproducts, rfl, rfl, rfl, rfl⟩
  show channels'.rows = _
  rw [hchannel', hchannel, map_map]
  rfl

theorem planStatements_idle (hmiss : planHits s row = false) (hland : planLanded s row plan = false)
    (h : batch (planStatements row plan context) c s = .ok (ns, t)) : planApplied ns = false ∧ t = s := by
  obtain ⟨n, s1, ms, hitem, hrest, rfl⟩ := batch_cons_ok h
  obtain ⟨rfl, rfl⟩ := setItemPrice_miss hmiss hitem
  exact ⟨rfl, batch_idle (fun st hst c n u hu => later_idle hland hst hu) hrest⟩

end Gmshop
