import GmshopEdge.Fulfillment.StockContent

/-!
# Stock deliveries one after the other

A run of `processDelivery` moves its order on by an event from the status that it read to the next one, and the
table of the events refuses an event between two equal statuses. So of an order with `n` stock deliveries the first
run moves it from `paid`, the last one to `completed`, and one between them would record `fulfilling` to `fulfilling`:
its batch aborts. All the runs succeed exactly where there is none between (`fulfilled_in_turn_iff`).
-/

namespace Gmshop

open List Sql Stmt Table Option Prod Prog

/-- The runs of some records, one after the other: what they answer, and the state they leave. -/
def deliverInTurn : List (Id × DeliveryEnv) → Db → List (Except (Failure DomainError) DeliveryReply) × Db
  | [], s => ([], s)
  | (d, e) :: runs, s =>
    let first := (processDelivery d e).alone s
    let others := deliverInTurn runs first.2
    (first.1 :: others.1, others.2)

/-- Every run succeeds, every record is delivered, and the order completed. -/
structure FulfilledInTurn (orderId : Id) (runs : List (Id × DeliveryEnv)) (s : Db) : Prop where
  succeed : ∀ r ∈ (deliverInTurn runs s).1, ∃ reply, r = .ok reply ∧ reply.status = .delivered
  delivered : ∀ run ∈ runs, ∃ d, (deliverInTurn runs s).2.deliveries.get? run.1 = some d ∧ d.status = .delivered
  completed : (deliverInTurn runs s).2.orderIs orderId (fun o => o.status == .completed) = true

/-- The order is in that status, and these are its records that are not delivered: stock deliveries, each of an item
of its own. -/
structure StockOrder (orderId : Id) (status : ShopOrderStatus) (version : Nat) (ids : List Id) (s : Db) : Prop where
  order : ∃ o, s.orders.get? orderId = some o ∧ o.status = status ∧ o.version = version
  nodup : ids.Nodup
  waits : ∀ d ∈ ids, ∃ r i, StockWaits orderId s d r i
  apart : ∀ d ∈ ids, ∀ d' ∈ ids, d ≠ d' → ∀ r r', s.deliveries.get? d = some r → s.deliveries.get? d' = some r' →
    r.orderItemId ≠ r'.orderItemId
  others : ∀ r ∈ s.deliveries.rows, s.itemOf orderId r.orderItemId = true → r.status ≠ .delivered → r.id ∈ ids

/-- The order has no event of its next `n` versions. -/
def NextFree (orderId : Id) (version n : Nat) (s : Db) : Prop :=
  ∀ k < n, VersionFree orderId (version + 1 + k) s

/-! ## One run -/

variable {content : Option DeliveryContent} {c : DeliveryContext} {o : ShopOrder} {s t : Db}
  {f : Failure DomainError} {now : Time} {next : ShopOrderStatus} {e : DeliveryEnv} {n version : Nat}
  {d orderId : Id} {ids : List Id}

theorem Delivers.otherStock (h : Delivers c content o s t) : OtherStock c.orderItemId s t := by
  refine ⟨_, h.stock, fun e => ?_⟩
  split
  · rename_i hhit
    rw [Bool.and_eq_true, beq_iff_eq] at hhit
    exact .inr ⟨hhit.1, hhit.1⟩
  · exact .inl rfl

/-- How a run ends: with `Q` where it moves the order on, else it fails. -/
def MovesOn {α : Type} (moves : Prop) (Q : α → Db → Prop) (a : Except (Failure DomainError) α) (t : Db) : Prop :=
  (moves → ∃ x, a = .ok x ∧ Q x t) ∧ (¬moves → ∃ f, a = .error f)

section MovesOn

variable {α : Type} {moves : Prop} {Q : α → Db → Prop} {t : Db}

theorem MovesOn.run {x : α} {a : Except (Failure DomainError) α} (hmoves : moves) (ha : a = .ok x) (h : Q x t) :
    MovesOn moves Q a t := ⟨fun _ => ⟨x, ha, h⟩, fun hstays => absurd hmoves hstays⟩

theorem MovesOn.fail (hstays : ¬moves) : MovesOn moves Q (.error f) t :=
  ⟨fun hmoves => absurd hmoves hstays, fun _ => ⟨f, rfl⟩⟩

theorem MovesOn.stays (h : MovesOn moves Q (.error f) t) : ¬moves := by
  intro hmoves
  obtain ⟨x, hx, -⟩ := h.1 hmoves
  cases hx

theorem MovesOn.moved {x : α} (h : MovesOn moves Q (.ok x) t) : moves ∧ Q x t := by
  by_cases hmoves : moves
  · obtain ⟨y, hy, hq⟩ := h.1 hmoves
    obtain rfl := Except.ok.inj hy
    exact ⟨hmoves, hq⟩
  · obtain ⟨f, hf⟩ := h.2 hmoves
    cases hf

end MovesOn

section Run

variable {orderId d : Id} {s : Db} {r : DeliveryRecord} {i : ShopOrderItem} {o : ShopOrder} {e : DeliveryEnv}

theorem Unchanged.of_waits (h : StockWaits orderId s d r i) (ho : s.orders.get? orderId = some o)
    (hopen : o.status.deliverable = true) (ht : t = Db.stockT.set s t.stock)
    (hready : (r.redeemSku.isNone || redeemReady t r) = true) : Unchanged (waitingContext r i o) o t := by
  have hid : o.id = orderId := get?_key ho
  have hrid : r.id = d := get?_key h.record
  have hdeliveries : t.deliveries = s.deliveries := by
    rw [ht]
    rfl
  have horders : t.orders = s.orders := by
    rw [ht]
    rfl
  have hopen' : t.itemDeliverable r.orderItemId = s.itemDeliverable r.orderItemId := by
    rw [ht]
    rfl
  refine ⟨⟨r, ?_, ?_, rfl, hready⟩, hopen'.trans (h.deliverable ho hopen), ?_, ?_⟩
  · rw [hdeliveries]
    exact (congrArg _ hrid).trans h.record
  · rw [h.status]
    rfl
  · rw [horders]
    exact (congrArg _ hid).trans ho
  · show (o.id == o.id && (o.status == o.status && o.version == o.version)) = true
    rw [beq_self_eq_true, beq_self_eq_true, beq_self_eq_true]
    rfl

theorem commitDelivery_leaves {remaining : Nat} (h : Unchanged c o s) (hstock : c.deliveryType = .stock) :
    Prog.Leaves (MovesOn (OrderMoves c.toDeliveryRef remaining s) fun ns t => ns.headD 0 = 1 ∧
      Delivers c content (setStatus (nextOrderStatus remaining) (c.orderVersion + 1) now o) s t)
      (commitDelivery c content remaining now) s := by
  obtain ⟨hgoes, haborts⟩ := deliverBatch_runs content remaining now h hstock
  have hbatch : Prog.Leaves (MovesOn (OrderMoves c.toDeliveryRef remaining s) fun ns t => ns.headD 0 = 1 ∧
      Delivers c content (setStatus (nextOrderStatus remaining) (c.orderVersion + 1) now o) s t)
      (Prog.commit (.processDelivery c.toDeliveryRef remaining) (deliverBatch c content remaining now) :
        Call Site (List Nat)) s := by
    refine ⟨fun hmoves => ?_, fun hstays => ?_⟩
    · obtain ⟨ns, t, ht, hdelivers⟩ := hgoes hmoves
      rw [Prog.commit_alone ht]
      exact ⟨1 :: ns, rfl, rfl, hdelivers⟩
    · obtain ⟨a, ha⟩ := haborts hstays
      refine ⟨.aborted a, ?_⟩
      simp only [Prog.commit, Prog.alone, ha]
  unfold commitDelivery
  split
  · -- a failure is recorded, and fails the run all the same
    refine Prog.Leaves.tryCatch hbatch (fun _ _ ha => ha) (fun _ ha => ha) fun f t _ ha => ?_
    have hstays := ha.stays
    unfold recordOwnedDeliveryFailure
    rw [Prog.bind_assoc]
    exact Prog.Leaves.commit (fun _ _ => .fail hstays) fun _ _ _ => .fail hstays
  · exact hbatch

theorem finishDelivery_leaves (content : Option DeliveryContent) (now : Time) (h : Unchanged c o s)
    (hstock : c.deliveryType = .stock) :
    Prog.Leaves (MovesOn (OrderMoves c.toDeliveryRef (remainingDeliveries s c.orderId c.id) s) fun reply t =>
      reply.status = .delivered ∧ Delivers c content
        (setStatus (nextOrderStatus (remainingDeliveries s c.orderId c.id)) (c.orderVersion + 1) now o) s t)
      (finishDelivery c content now) s := by
  refine Prog.Leaves.query (Prog.Leaves.bind (commitDelivery_leaves h hstock) (fun ns t ha => ?_)
    fun f t ha => .fail ha.stays)
  obtain ⟨hmoves, hhead, hdelivers⟩ := ha.moved
  rw [if_neg (by rw [hhead]; exact Nat.lt_irrefl 1)]
  exact .run hmoves rfl ⟨rfl, hdelivers⟩

end Run

/-! ## The order between two runs -/

/-- What a run leaves: its record is delivered, as those before it, and the others wait in the next status, at the
next version, of which the order has an event now. -/
structure RunDone (orderId : Id) (next : ShopOrderStatus) (version : Nat) (d : Id) (ids : List Id) (s t : Db) :
    Prop where
  record : ∃ r, t.deliveries.get? d = some r ∧ r.status = .delivered
  kept : ∀ d', (∃ r, s.deliveries.get? d' = some r ∧ r.status = .delivered) →
    ∃ r, t.deliveries.get? d' = some r ∧ r.status = .delivered
  order : StockOrder orderId next (version + 1) ids t
  events : ∃ ev, t.events.rows = s.events.rows ++ [ev] ∧ ev.orderId = orderId ∧ ev.orderVersion = some (version + 1)

section Between

variable {orderId d : Id} {ids : List Id} {status : ShopOrderStatus} {version : Nat} {s : Db}

section

variable (h : StockOrder orderId status version (d :: ids) s)
include h

theorem StockOrder.mem_order {d' : Id} (hd' : d' ∈ ids) : d ≠ d' :=
  fun heq => (nodup_cons.mp h.nodup).1 (heq ▸ hd')

theorem StockOrder.remaining : nextOrderStatus (remainingDeliveries s orderId d) = nextOrderStatus ids.length := by
  have hzero : remainingDeliveries s orderId d = 0 ↔ ids.length = 0 := by
    unfold remainingDeliveries
    rw [Table.count_eq_zero, length_eq_zero_iff, eq_nil_iff_forall_not_mem]
    constructor
    · intro hnone d' hd'
      obtain ⟨r, i, hw⟩ := h.waits d' (mem_cons_of_mem _ hd')
      have hcounted := hnone r (Table.get?_mem hw.record)
      have hid : r.id = d' := Table.get?_key hw.record
      rw [undelivered, itemOf_iff.mpr ⟨i, hw.item, hw.order⟩, hw.status, hid,
        bne_iff_ne.mpr (h.mem_order hd').symm] at hcounted
      cases hcounted
    · intro hnone r hr
      by_contra hcounted
      rw [Bool.not_eq_false, undelivered, Bool.and_eq_true, Bool.and_eq_true, bne_iff_ne, bne_iff_ne] at hcounted
      rcases mem_cons.mp (h.others r hr hcounted.1.1 hcounted.1.2) with hid | hid
      · exact hcounted.2 hid
      · exact hnone r.id hid
  unfold nextOrderStatus
  by_cases hlast : ids.length = 0
  · rw [if_pos hlast, if_pos (hzero.mpr hlast)]
  · rw [if_neg hlast, if_neg fun h => hlast (hzero.mp h)]

end

theorem Delivers.get? (h : Delivers c content o s t) (d' : Id) : t.deliveries.get? d' =
      (s.deliveries.get? d').map fun r => if r.id = c.id then deliveredRecord content r else r :=
  get?_map h.deliveries (fun r => by split <;> rfl) d'

section

variable (h : StockOrder orderId status version (d :: ids) s)
include h

theorem StockOrder.delivers {r : DeliveryRecord} {i : ShopOrderItem} {u : Db} (hw : StockWaits orderId s d r i)
    (ho : s.orders.get? orderId = some o) (hv : o.version = version) (ht : t = Db.stockT.set s t.stock)
    (hstock : OtherStock i.id s t)
    (hu : Delivers (waitingContext r i o) content (setStatus next (o.version + 1) now o) t u) :
    RunDone orderId next version d ids s u := by
  have hrid : r.id = d := get?_key hw.record
  have hid : o.id = orderId := get?_key ho
  have hdeliveries : t.deliveries = s.deliveries := by
    rw [ht]
    rfl
  have hget : ∀ d', d' ≠ d → u.deliveries.get? d' = s.deliveries.get? d' := by
    intro d' hne
    rw [hu.get?, hdeliveries]
    cases hfound : s.deliveries.get? d' with
    | none => rfl
    | some x =>
      have hxid : x.id = d' := get?_key hfound
      exact congrArg some (if_neg fun hx => hne (hxid.symm.trans (hx.trans hrid)))
  have hitems : u.items = s.items := hu.items.trans (by rw [ht]; rfl)
  have hother : OtherStock i.id s u := hstock.trans (by rw [hw.itemId]; exact hu.otherStock)
  have hdone : ∃ x, u.deliveries.get? d = some x ∧ x.status = .delivered := by
    refine ⟨deliveredRecord content r, ?_, rfl⟩
    rw [hu.get?, hdeliveries, hw.record]
    exact congrArg some (if_pos rfl)
  have hwaits : ∀ d' ∈ ids, ∃ r' i', StockWaits orderId u d' r' i' := by
    intro d' hd'
    have hne := (h.mem_order hd').symm
    obtain ⟨r', i', hw'⟩ := h.waits d' (mem_cons_of_mem _ hd')
    have hitem : i'.id ≠ i.id := by
      rw [hw.itemId, hw'.itemId]
      exact h.apart d' (mem_cons_of_mem _ hd') d mem_cons_self hne r' r hw'.record hw.record
    have hreserved := hother.reserved hitem
    refine ⟨r', i', (hget d' hne).trans hw'.record, hw'.status, hw'.type, hitems ▸ hw'.item, hw'.order,
      hreserved ▸ hw'.full, hreserved ▸ hw'.sku, ?_, ?_⟩
    · rw [hu.upgrades, ht]
      exact hw'.noUpgrade
    · rw [hu.access, ht]
      exact hw'.noAccess
  refine ⟨hdone, fun d' hd' => ?_, ⟨?_, (nodup_cons.mp h.nodup).2, hwaits, ?_, ?_⟩, ?_⟩
  · by_cases hne : d' = d
    · exact hne ▸ hdone
    · rw [hget d' hne]
      exact hd'
  · exact ⟨_, (congrArg _ hid.symm).trans hu.order, rfl, congrArg (· + 1) hv⟩
  · intro d1 h1 d2 h2 hne r1 r2 hr1 hr2
    rw [hget d1 (h.mem_order h1).symm] at hr1
    rw [hget d2 (h.mem_order h2).symm] at hr2
    exact h.apart d1 (mem_cons_of_mem _ h1) d2 (mem_cons_of_mem _ h2) hne r1 r2 hr1 hr2
  · intro x hx hitem hopen
    rw [hu.deliveries, hdeliveries] at hx
    obtain ⟨y, hy, rfl⟩ := mem_map.mp hx
    by_cases hyd : y.id = (waitingContext r i o).id
    · rw [if_pos hyd] at hopen
      exact absurd rfl hopen
    · rw [if_neg hyd] at hopen hitem ⊢
      have hmem := h.others y hy (by unfold Db.itemOf at hitem ⊢; rw [← hitems]; exact hitem) hopen
      exact (mem_cons.mp hmem).resolve_left fun heq => hyd (heq.trans hrid.symm)
  · obtain ⟨ev, hevents, horder, hversion⟩ := hu.events
    refine ⟨ev, ?_, horder.trans hid, hversion.trans (congrArg (fun v => some (v + 1)) hv)⟩
    rw [hevents, ht]
    rfl

theorem processOrderDelivery_leaves (hopen : status.deliverable = true) (he : e.Serves) :
    Prog.Leaves (MovesOn (nextOrderStatus ids.length ≠ status ∧ VersionFree orderId (version + 1) s) fun reply t =>
      reply.status = .delivered ∧ RunDone orderId (nextOrderStatus ids.length) version d ids s t)
      (processOrderDelivery d e) s := by
  obtain ⟨o, ho, rfl, hv⟩ := h.order
  obtain ⟨r, i, hw⟩ := h.waits d mem_cons_self
  unfold processOrderDelivery
  refine Prog.Leaves.query ?_
  rw [hw.context ho]
  dsimp only
  have hstatus : (waitingContext r i o).status = .pending := hw.status
  have hdeliverable : (waitingContext r i o).orderStatus.deliverable = true := hopen
  rw [hstatus, hdeliverable, if_neg nofun, if_neg nofun, if_neg nofun,
    if_pos (show (waitingContext r i o).deliveryType = .stock from hw.type)]
  refine Prog.Leaves.bind (stockContent_leaves hw ho hopen he) (fun content t ht => ?_) fun f t ht => ?_
  · obtain ⟨-, hrest, hother, hready⟩ := ht
    have hid : o.id = orderId := get?_key ho
    have hremaining : nextOrderStatus (remainingDeliveries t (waitingContext r i o).orderId (waitingContext r i o).id) =
        nextOrderStatus ids.length := by
      rw [← h.remaining, hrest, ← hid, ← (show r.id = d from get?_key hw.record)]
      rfl
    have hmoves : OrderMoves (waitingContext r i o).toDeliveryRef
        (remainingDeliveries t (waitingContext r i o).orderId (waitingContext r i o).id) t ↔
          nextOrderStatus ids.length ≠ o.status ∧ VersionFree orderId (version + 1) s := by
      unfold OrderMoves VersionFree
      rw [hremaining, show t.events = s.events by rw [hrest]; rfl, ← hv, ← hid]
      exact Iff.rfl
    have hfinish := finishDelivery_leaves content e.now (Unchanged.of_waits hw ho hopen hrest hready) hw.type
    rw [hremaining] at hfinish
    refine hfinish.mono fun a u ha => ⟨fun hgo => ?_, fun hstays => ha.2 fun hgo => hstays (hmoves.mp hgo)⟩
    obtain ⟨reply, rfl, hreply, hdelivers⟩ := ha.1 (hmoves.mpr hgo)
    exact ⟨reply, rfl, hreply, h.delivers hw ho hv hrest hother hdelivers⟩
  · obtain ⟨⟨content, hcontent⟩, -⟩ := ht
    cases hcontent

end

theorem processUpgradeDelivery_none {e : UpgradeEnv} (h : upgradeRow s d = none) :
    (processUpgradeDelivery d e).alone s = (.ok none, s) := by
  have hread : (query fun s => upgradeRow s d : Call Site (Option UpgradeRow)).alone s = (.ok none, s) := by
    rw [← h]
    rfl
  unfold processUpgradeDelivery
  rw [alone_bind hread]
  rfl

theorem processAgentDelivery_none {e : AgentEnv} (h : agentRow s d = none) :
    (processAgentDelivery d e).alone s = (.ok none, s) := by
  have hread : (query fun s => agentRow s d : Call Site (Option AgentRow)).alone s = (.ok none, s) := by
    rw [← h]
    rfl
  unfold processAgentDelivery
  rw [alone_bind hread]
  rfl

theorem run_leaves (h : StockOrder orderId status version (d :: ids) s) (hopen : status.deliverable = true)
    (he : e.Serves) :
    Prog.Leaves (MovesOn (nextOrderStatus ids.length ≠ status ∧ VersionFree orderId (version + 1) s) fun reply t =>
      reply.status = .delivered ∧ RunDone orderId (nextOrderStatus ids.length) version d ids s t)
      (processDelivery d e) s := by
  obtain ⟨r, i, hw⟩ := h.waits d mem_cons_self
  have hupgrade : upgradeRow s d = none := by
    unfold upgradeRow
    rw [hw.record, bind_eq_bind, bind_some, ← hw.itemId, hw.noUpgrade]
    rfl
  have haccess : agentRow s d = none := by
    unfold agentRow
    rw [hw.record, bind_eq_bind, bind_some, ← hw.itemId, hw.noAccess]
    rfl
  have hplain : (processDelivery d e).alone s = (processOrderDelivery d e).alone s := by
    unfold processDelivery
    rw [alone_bind (processUpgradeDelivery_none hupgrade), alone_bind (processAgentDelivery_none haccess)]
  unfold Prog.Leaves
  rw [hplain]
  exact processOrderDelivery_leaves h hopen he

end Between

/-! ## All the runs -/

theorem nextFree_succ : NextFree orderId version (n + 1) s ↔
    VersionFree orderId (version + 1) s ∧ NextFree orderId (version + 1) n s := by
  constructor
  · intro h
    refine ⟨h 0 (Nat.succ_pos n), fun k hk => ?_⟩
    have hfree := h (k + 1) (Nat.succ_lt_succ hk)
    rwa [show version + 1 + (k + 1) = version + 1 + 1 + k by omega] at hfree
  · rintro ⟨hfirst, hrest⟩ k hk
    cases k with
    | zero => exact hfirst
    | succ k =>
      have hfree := hrest k (Nat.lt_of_succ_lt_succ hk)
      rwa [show version + 1 + 1 + k = version + 1 + (k + 1) by omega] at hfree

theorem RunDone.nextFree (h : RunDone orderId next version d ids s t) :
    NextFree orderId (version + 1) n t ↔ NextFree orderId (version + 1) n s := by
  obtain ⟨ev, hevents, -, hversion⟩ := h.events
  refine forall₂_congr fun k _ => ?_
  unfold VersionFree
  rw [hevents]
  constructor
  · exact fun hfree x hx => hfree x (mem_append_left _ hx)
  · intro hfree x hx
    rcases mem_append.mp hx with hx | hx
    · exact hfree x hx
    · rw [mem_singleton.mp hx, hversion]
      intro _ heq
      have := some.inj heq
      omega

def SucceedInTurn (runs : List (Id × DeliveryEnv)) (s : Db) : Prop :=
  ∀ a ∈ (deliverInTurn runs s).1, ∃ reply, a = .ok reply ∧ reply.status = .delivered

section Runs

variable {orderId : Id} {status : ShopOrderStatus} {version : Nat} {runs : List (Id × DeliveryEnv)} {s : Db}

section

variable (h : StockOrder orderId status version (d :: runs.map Prod.fst) s) (hopen : status.deliverable = true) (he : e.Serves)
include h hopen he

theorem succeedInTurn_cons : SucceedInTurn ((d, e) :: runs) s ↔
      (nextOrderStatus runs.length ≠ status ∧ VersionFree orderId (version + 1) s) ∧
        SucceedInTurn runs ((processDelivery d e).alone s).2 := by
  have hrun := run_leaves h hopen he
  rw [length_map] at hrun
  unfold SucceedInTurn
  rw [deliverInTurn, forall_mem_cons]
  refine and_congr_left fun _ => ⟨fun ⟨reply, ha, _⟩ => ?_, fun hmoves => ?_⟩
  · by_contra hstays
    obtain ⟨f, hf⟩ := hrun.2 hstays
    rw [ha] at hf
    cases hf
  · obtain ⟨reply, ha, hreply, -⟩ := hrun.1 hmoves
    exact ⟨reply, ha, hreply⟩

theorem runDone_of_moves (hmoves : nextOrderStatus runs.length ≠ status ∧ VersionFree orderId (version + 1) s) :
    RunDone orderId (nextOrderStatus runs.length) version d (runs.map fst) s ((processDelivery d e).alone s).2 := by
  have hrun := run_leaves h hopen he
  rw [length_map] at hrun
  obtain ⟨-, -, -, hdone⟩ := hrun.1 hmoves
  exact hdone

end

theorem nextOrderStatus_cons (x : Id × DeliveryEnv) (xs : List (Id × DeliveryEnv)) :
    nextOrderStatus (x :: xs).length = .fulfilling := if_neg (Nat.succ_ne_zero _)

section

variable (h : StockOrder orderId status version (runs.map Prod.fst) s) (hserves : ∀ run ∈ runs, run.2.Serves) (hopen : status.deliverable = true)
include h hserves hopen

theorem succeedInTurn_iff :
    SucceedInTurn runs s ↔
      runs.length ≤ (if status = .paid then 2 else 1) ∧ NextFree orderId version runs.length s := by
  induction runs generalizing s status version with
  | nil => exact iff_of_true nofun ⟨Nat.zero_le _, fun k hk => absurd hk (Nat.not_lt_zero k)⟩
  | cons run runs ih =>
    obtain ⟨d, e⟩ := run
    have he := hserves _ mem_cons_self
    rw [succeedInTurn_cons h hopen he, length_cons, nextFree_succ]
    cases runs with
    | nil =>
      -- the last run completes the order
      have hne : nextOrderStatus ([] : List (Id × DeliveryEnv)).length ≠ status := by
        rintro rfl
        cases hopen
      have hone : ([] : List (Id × DeliveryEnv)).length + 1 ≤ if status = .paid then 2 else 1 := by
        show 1 ≤ _
        split <;> omega
      constructor
      · rintro ⟨⟨-, hfree⟩, -⟩
        exact ⟨hone, hfree, fun k hk => absurd hk (Nat.not_lt_zero k)⟩
      · rintro ⟨-, hfree, -⟩
        exact ⟨⟨hne, hfree⟩, nofun⟩
    | cons run' runs =>
      by_cases hpaid : status = .paid
      · -- the first one leaves it `fulfilling`
        subst hpaid
        have hne : nextOrderStatus (run' :: runs).length ≠ .paid := by
          rw [nextOrderStatus_cons]
          nofun
        rw [if_pos rfl]
        by_cases hfree : VersionFree orderId (version + 1) s
        · have hdone := runDone_of_moves h hopen he ⟨hne, hfree⟩
          have horder := hdone.order
          rw [nextOrderStatus_cons] at horder
          rw [ih horder (fun x hx => hserves x (mem_cons_of_mem _ hx)) rfl, if_neg nofun, hdone.nextFree]
          constructor
          · rintro ⟨-, hlength, hrest⟩
            exact ⟨by omega, hfree, hrest⟩
          · rintro ⟨hlength, -, hrest⟩
            exact ⟨⟨hne, hfree⟩, by omega, hrest⟩
        · exact iff_of_false (fun h => hfree h.1.2) fun h => hfree h.2.1
      · -- one in between would not move it
        have hfulfilling : status = .fulfilling := by
          cases status <;> first | rfl | exact absurd rfl hpaid | cases hopen
        rw [nextOrderStatus_cons, if_neg hpaid, length_cons]
        refine iff_of_false (fun h => h.1.1 hfulfilling.symm) fun h => ?_
        have := h.1
        omega

theorem delivered_of_succeed (hall : SucceedInTurn runs s) :
    (∀ d, ((∃ r, s.deliveries.get? d = some r ∧ r.status = .delivered) ∨ d ∈ runs.map fst) →
      ∃ r, (deliverInTurn runs s).2.deliveries.get? d = some r ∧ r.status = .delivered) ∧
    (runs ≠ [] → (deliverInTurn runs s).2.orderIs orderId (fun o => o.status == .completed) = true) := by
  induction runs generalizing s status version with
  | nil => exact ⟨fun d hd => hd.resolve_right not_mem_nil, fun hne => absurd rfl hne⟩
  | cons run runs ih =>
    obtain ⟨d, e⟩ := run
    have he := hserves _ mem_cons_self
    obtain ⟨hmoves, hrest⟩ := (succeedInTurn_cons h hopen he).mp hall
    have hdone := runDone_of_moves h hopen he hmoves
    have horder := hdone.order
    rw [deliverInTurn]
    cases runs with
    | nil =>
      obtain ⟨o, ho, hstatus, -⟩ := horder.order
      refine ⟨fun d' hd' => ?_, fun _ => orderIs_iff.mpr ⟨o, ho, beq_iff_eq.mpr hstatus⟩⟩
      rcases hd' with hd' | hd'
      · exact hdone.kept d' hd'
      · rw [mem_singleton.mp hd']
        exact hdone.record
    | cons run' runs =>
      rw [nextOrderStatus_cons] at horder
      obtain ⟨hkept, hcompleted⟩ := ih horder (fun x hx => hserves x (mem_cons_of_mem _ hx)) rfl hrest
      refine ⟨fun d' hd' => hkept d' ?_, fun _ => hcompleted nofun⟩
      rcases hd' with hd' | hd'
      · exact .inl (hdone.kept d' hd')
      rcases mem_cons.mp hd' with rfl | hd'
      · exact .inl hdone.record
      · exact .inr hd'

end

/-- From a paid order with its stock deliveries, one run each in any order: all of them succeed, deliver their
records and complete the order exactly where there are at most two, and no event has taken the next versions. -/
theorem fulfilled_in_turn_iff (h : StockOrder orderId .paid version (runs.map fst) s) (hruns : runs ≠ [])
    (hserves : ∀ run ∈ runs, run.2.Serves) :
    FulfilledInTurn orderId runs s ↔ runs.length ≤ 2 ∧ NextFree orderId version runs.length s := by
  have hsucceed := succeedInTurn_iff h hserves rfl
  rw [if_pos rfl] at hsucceed
  constructor
  · exact fun hall => hsucceed.mp hall.succeed
  · intro hcond
    have hall := hsucceed.mpr hcond
    obtain ⟨hdelivered, hcompleted⟩ := delivered_of_succeed h hserves rfl hall
    exact ⟨hall, fun run hrun => hdelivered run.1 (.inr (mem_map_of_mem hrun)), hcompleted hruns⟩

end Runs

/-! ## Two orders -/

def stockItem (id : Id) : ShopOrderItem :=
  { id := id, orderId := 1, sellableItemId := id, deliveryComponentId := id, deliveryComponentType := .stock
    quantity := 1 }

def stockDelivery (id : Id) : DeliveryRecord :=
  { id := id, orderItemId := id, deliveryType := .stock, status := .pending }

def stockEntry (id : Id) : StockEntry := { id := id, sellableItemId := id, status := .reserved, orderItemId := some id }

def twoStockDb : Db where
  orders := .of [{ id := 1, status := .paid, version := 2, totalMinor := 100, paidMinor := 100 }]
  items := .of [stockItem 1, stockItem 2]
  deliveries := .of [stockDelivery 1, stockDelivery 2]
  stock := .of [stockEntry 1, stockEntry 2]
  events := .of [{ orderId := 1, eventType := .paymentSucceeded, fromStatus := some .pendingPayment
                   toStatus := some .paid, orderVersion := some 2 }]

def threeStockDb : Db :=
  { twoStockDb with
    items := .of [stockItem 1, stockItem 2, stockItem 3]
    deliveries := .of [stockDelivery 1, stockDelivery 2, stockDelivery 3]
    stock := .of [stockEntry 1, stockEntry 2, stockEntry 3] }

theorem offlineEnv_serves (now : Time) : (offlineEnv now).Serves := ⟨rfl, rfl, rfl, fun _ => rfl⟩

theorem stockOrder_of (horder : (s.orders.get? 1).map (fun o => (o.status, o.version)) = some (.paid, 2))
    (hnodup : ids.Nodup)
    (hrows : ∀ d ∈ ids, s.deliveries.get? d = some (stockDelivery d) ∧ s.items.get? d = some (stockItem d) ∧
      reservedEntries s d = [stockEntry d] ∧ s.upgradeOrders.get? d = none ∧ s.agentOrders.get? d = none)
    (hothers : ∀ r ∈ s.deliveries.rows, s.itemOf 1 r.orderItemId = true → r.status ≠ .delivered → r.id ∈ ids) :
    StockOrder 1 .paid 2 ids s := by
  refine ⟨?_, hnodup, fun d hd => ?_, fun d hd d' hd' hne r r' hr hr' => ?_, hothers⟩
  · obtain ⟨o, ho, hrow⟩ := map_eq_some_iff.mp horder
    exact ⟨o, ho, congrArg fst hrow, congrArg snd hrow⟩
  · obtain ⟨hrecord, hitem, hstock, hupgrade, haccess⟩ := hrows d hd
    refine ⟨stockDelivery d, stockItem d, hrecord, rfl, rfl, hitem, rfl, ?_, nofun, hupgrade, haccess⟩
    show (reservedEntries s d).length = 1
    rw [hstock]
    rfl
  · rw [(hrows d hd).1] at hr
    rw [(hrows d' hd').1] at hr'
    obtain rfl := some.inj hr
    obtain rfl := some.inj hr'
    exact hne

theorem twoStockDb_order : StockOrder 1 .paid 2 [2, 1] twoStockDb :=
  stockOrder_of (by decide) (by decide) (by decide) (by decide)

theorem threeStockDb_order : StockOrder 1 .paid 2 [1, 2, 3] threeStockDb :=
  stockOrder_of (by decide) (by decide) (by decide) (by decide)

instance (orderId : Id) (version n : Nat) (s : Db) : Decidable (NextFree orderId version n s) := by
  unfold NextFree VersionFree
  infer_instance

theorem fulfilled_in_turn_iff_two : FulfilledInTurn 1 [(2, offlineEnv 5), (1, offlineEnv 6)] twoStockDb := by
  have horder : StockOrder 1 .paid 2 ([(2, offlineEnv 5), (1, offlineEnv 6)].map fst) twoStockDb := twoStockDb_order
  have hserves : ∀ run ∈ [(2, offlineEnv 5), (1, offlineEnv 6)], run.2.Serves := fun run hrun => by
    rcases mem_pair.mp hrun with rfl | rfl <;> exact offlineEnv_serves _
  exact (fulfilled_in_turn_iff horder nofun hserves).mpr ⟨by decide, by decide⟩

/-- The second of three runs aborts. -/
theorem middle_delivery_aborts :
    ¬∀ orderId version (runs : List (Id × DeliveryEnv)) s, StockOrder orderId .paid version (runs.map fst) s →
      runs ≠ [] → (∀ run ∈ runs, run.2.Serves) → NextFree orderId version runs.length s →
        FulfilledInTurn orderId runs s := by
  intro h
  have hall := h 1 2 [(1, offlineEnv 5), (2, offlineEnv 6), (3, offlineEnv 7)] threeStockDb threeStockDb_order nofun
    (fun run hrun => by
      rcases mem_cons.mp hrun with rfl | hrun
      · exact offlineEnv_serves 5
      · rcases mem_pair.mp hrun with rfl | rfl <;> exact offlineEnv_serves _)
    (by decide)
  have hfails : ∃ a ∈ (deliverInTurn [(1, offlineEnv 5), (2, offlineEnv 6), (3, offlineEnv 7)] threeStockDb).1,
      a.toBool = false := by
    decide
  obtain ⟨a, ha, hfalse⟩ := hfails
  obtain ⟨reply, rfl, -⟩ := hall.succeed a ha
  cases hfalse

end Gmshop
