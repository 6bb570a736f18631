import GmshopEdge.Builds.Calls
import GmshopEdge.Lib.Total
import GmshopEdge.Lib.Checked

/-!
# What a finished build leaves behind

A callback that moves a job into `succeeded` or `failed` inserts an outbox event and an order event. Both are keyed by
the job and the status alone and skipped where the key is taken, so of the attempts of a retried job only the first to
end in a status is reported (`finish_reported_iff`).
-/

namespace Gmshop

open List Sql Stmt Prog Table Prod

/-! ## Transitions and reports -/

structure JobFinishes (jobId : Id) (st : CallbackStatus) (s t : Db) : Prop where
  final : st ≠ .running
  after : ∃ j ∈ t.automationJobs.get? jobId, j.status = st.job
  before : ∀ j ∈ s.automationJobs.get? jobId, j.status ≠ st.job

/-- The step adds one outbox event about the job and one event of its order. -/
def ReportedOnce (jobId : Id) (st : CallbackStatus) (s t : Db) : Prop :=
  ∃ o ∈ st.outcome, ∃ j ∈ s.automationJobs.get? jobId, ∃ oi ∈ s.items.get? j.orderItemId, ∃ key id,
    t.outbox.rows = s.outbox.rows ++ [{ eventType := o.1, aggregateId := jobId, idempotencyKey := key }] ∧
    t.events.rows = s.events.rows ++ [{ actionEvent oi.orderId o.2 with id := id }]

def NotReportedYet (jobId : Id) (st : CallbackStatus) (s : Db) : Prop :=
  (∀ e ∈ s.outbox.rows, e.idempotencyKey ≠ .automationCallback jobId st.job) ∧
    ∀ e ∈ s.events.rows, e.id ≠ some (.automation jobId st.job)

variable {st : CallbackStatus}

theorem CallbackStatus.outcome_of_final (h : st ≠ .running) : ∃ o, st.outcome = some o := by
  cases st with
  | running => exact absurd rfl h
  | succeeded => exact ⟨_, rfl⟩
  | failed => exact ⟨_, rfl⟩

theorem CallbackStatus.job_injective : Function.Injective CallbackStatus.job := by
  intro a b h
  cases a <;> cases b <;> first | rfl | cases h

theorem CallbackStatus.job_final (h : st ≠ .running) : st.job = .succeeded ∨ st.job = .failed := by
  cases st with
  | running => exact absurd rfl h
  | succeeded => exact .inl rfl
  | failed => exact .inr rfl

/-! ## Foreign keys -/

structure JobItems (s : Db) : Prop where
  jobs : ∀ j ∈ s.automationJobs.rows, (s.items.get? j.orderItemId).isSome
  entitlements : ∀ ce ∈ s.entitlements.rows, (s.items.get? ce.orderItemId).isSome

structure ItemsKept (s t : Db) : Prop where
  items : t.items = s.items
  jobs : ∀ j ∈ t.automationJobs.rows, (∃ j' ∈ s.automationJobs.rows, j'.orderItemId = j.orderItemId) ∨
    ∃ ce ∈ s.entitlements.rows, ce.orderItemId = j.orderItemId
  entitlements : ∀ ce ∈ t.entitlements.rows, ∃ ce' ∈ s.entitlements.rows, ce'.orderItemId = ce.orderItemId

theorem ItemsKept.refl (s : Db) : ItemsKept s s :=
  ⟨rfl, fun j hj => .inl ⟨j, hj, rfl⟩, fun ce hce => ⟨ce, hce, rfl⟩⟩

theorem ItemsKept.trans {s t u : Db} (h : ItemsKept s t) (h' : ItemsKept t u) : ItemsKept s u where
  items := h'.items.trans h.items
  jobs j hj := by
    rcases h'.jobs j hj with ⟨j', hj', hitem⟩ | ⟨ce, hce, hitem⟩
    · rw [← hitem]
      exact h.jobs j' hj'
    · obtain ⟨ce', hce', hitem'⟩ := h.entitlements ce hce
      exact .inr ⟨ce', hce', hitem'.trans hitem⟩
  entitlements ce hce := by
    obtain ⟨ce', hce', hitem⟩ := h'.entitlements ce hce
    obtain ⟨ce'', hce'', hitem'⟩ := h.entitlements ce' hce'
    exact ⟨ce'', hce'', hitem'.trans hitem⟩

theorem ItemsKept.jobItems {s t : Db} (h : ItemsKept s t) (hs : JobItems s) : JobItems t where
  jobs j hj := by
    rw [h.items]
    rcases h.jobs j hj with ⟨j', hj', hitem⟩ | ⟨ce, hce, hitem⟩
    · exact hitem ▸ hs.jobs j' hj'
    · exact hitem ▸ hs.entitlements ce hce
  entitlements ce hce := by
    obtain ⟨ce', hce', hitem⟩ := h.entitlements ce hce
    rw [h.items, ← hitem]
    exact hs.entitlements ce' hce'

/-! ## Steps that finish no job -/

/-- The step names no new order item and moves no job into a final status. -/
structure NoneFinishes (s t : Db) : Prop extends ItemsKept s t where
  finals : ∀ j ∈ t.automationJobs.rows, j.status = .succeeded ∨ j.status = .failed →
    ∃ j' ∈ s.automationJobs.rows, j'.id = j.id ∧ j'.status = j.status

theorem NoneFinishes.refl (s : Db) : NoneFinishes s s := ⟨.refl s, fun j hj _ => ⟨j, hj, rfl, rfl⟩⟩

theorem NoneFinishes.trans {s t u : Db} (h : NoneFinishes s t) (h' : NoneFinishes t u) : NoneFinishes s u where
  toItemsKept := h.toItemsKept.trans h'.toItemsKept
  finals j hj hfinal := by
    obtain ⟨j', hj', hid, hstatus⟩ := h'.finals j hj hfinal
    obtain ⟨j'', hj'', hid', hstatus'⟩ := h.finals j' hj' (hstatus ▸ hfinal)
    exact ⟨j'', hj'', hid'.trans hid, hstatus'.trans hstatus⟩

theorem NoneFinishes.not_finishes {s t : Db} (h : NoneFinishes s t) (jobId : Id) (st : CallbackStatus) :
    ¬ JobFinishes jobId st s t := by
  rintro ⟨hfinal, ⟨j, hj, hstatus⟩, hbefore⟩
  obtain ⟨j', hj', hid, hstatus'⟩ := h.finals j (get?_mem hj) (by
    rw [hstatus]
    exact CallbackStatus.job_final hfinal)
  have hget : s.automationJobs.get? jobId = some j' := by
    have hkey : j.id = jobId := get?_key hj
    rw [← hkey, ← hid]
    exact mem_get? hj'
  exact hbefore j' hget (hstatus'.trans hstatus)

theorem noneFinishes_of_keeps {st : Stmt Db} (h : Keeps (fun s => (s.items, s.automationJobs, s.entitlements)) st) :
    Within NoneFinishes st := by
  intro c s n t hst
  have heq := h c s n t hst
  simp only [mk.injEq] at heq
  obtain ⟨hitems, hjobs, hentitlements⟩ := heq
  refine ⟨⟨hitems, fun j hj => .inl ⟨j, hjobs ▸ hj, rfl⟩, fun ce hce => ⟨ce, hentitlements ▸ hce, rfl⟩⟩, fun j hj _ => ?_⟩
  exact ⟨j, hjobs ▸ hj, rfl, rfl⟩

variable {f : Db → AutomationJob → AutomationJob} {p : Db → AutomationJob → Bool}

theorem updateJobs_itemsKept (hitem : ∀ s j, (f s j).orderItemId = j.orderItemId) :
    Within ItemsKept (update Db.automationJobsT p f) := by
  intro c s n s' h
  obtain ⟨-, t, ht, rfl⟩ := update_ok h
  refine ⟨rfl, fun j hj => .inl ?_, fun ce hce => ⟨ce, hce, rfl⟩⟩
  rw [show (Db.automationJobsT.set s t).automationJobs.rows = _ from ht] at hj
  obtain ⟨x, hx, rfl⟩ := mem_map.mp hj
  refine ⟨x, hx, ?_⟩
  split
  · exact (hitem s x).symm
  · rfl

theorem updateJobs_noneFinishes (hitem : ∀ s j, (f s j).orderItemId = j.orderItemId)
    (hstatus : ∀ s j, (f s j).status ≠ .succeeded ∧ (f s j).status ≠ .failed) :
    Within NoneFinishes (update Db.automationJobsT p f) := by
  intro c s n s' h
  refine ⟨updateJobs_itemsKept hitem c s n s' h, fun j hj hfinal => ?_⟩
  obtain ⟨-, t, ht, rfl⟩ := update_ok h
  rw [show (Db.automationJobsT.set s t).automationJobs.rows = _ from ht] at hj
  obtain ⟨x, hx, rfl⟩ := mem_map.mp hj
  by_cases hp : p s x = true
  · rw [if_pos hp] at hfinal
    rcases hfinal with hfinal | hfinal
    · exact absurd hfinal (hstatus s x).1
    · exact absurd hfinal (hstatus s x).2
  · rw [if_neg hp]
    exact ⟨x, hx, rfl, rfl⟩

theorem updateEntitlements_noneFinishes {p : Db → CustomerEntitlement → Bool}
    {f : Db → CustomerEntitlement → CustomerEntitlement} (hitem : ∀ s ce, (f s ce).orderItemId = ce.orderItemId) :
    Within NoneFinishes (update Db.entitlementsT p f) := by
  intro c s n s' h
  obtain ⟨-, t, ht, rfl⟩ := update_ok h
  refine ⟨⟨rfl, fun j hj => .inl ⟨j, hj, rfl⟩, fun ce hce => ?_⟩, fun j hj _ => ⟨j, hj, rfl, rfl⟩⟩
  rw [show (Db.entitlementsT.set s t).entitlements.rows = _ from ht] at hce
  obtain ⟨x, hx, rfl⟩ := mem_map.mp hce
  refine ⟨x, hx, ?_⟩
  split
  · exact (hitem s x).symm
  · rfl

theorem audit_noneFinishes (jobId : Id) (action : String) (p : AutomationJob → Bool) :
    Within NoneFinishes (buildAuditStatement jobId action p) :=
  noneFinishes_of_keeps (insert_off rfl)

theorem batch_noneFinishes {sts : List (Stmt Db)} (hsts : ∀ st ∈ sts, Within NoneFinishes st) {c : Nat} {s t : Db}
    {ns : List Nat} (hb : batch sts c s = .ok (ns, t)) : NoneFinishes s t :=
  batch_within .refl (fun _ _ _ h h' => h.trans h') hsts hb

theorem createBuild_noneFinishes (input : CreateBuildInput) (context : CustomerEntitlement) (method : BuildMethod)
    (e : CreateBuildEnv) : ∀ st ∈ createBuildStatements input context method e, Within NoneFinishes st := by
  intro st hst
  refine each_five ?_ ?_ ?_ ?_ ?_ _ hst
  · -- the new job is of its entitlement's item, and queued
    intro c s n s' h
    obtain ⟨-, t, ht, rfl⟩ := insert_abort_ok h
    have hrows : (Db.automationJobsT.set s t).automationJobs.rows = _ := ht
    refine ⟨⟨rfl, fun j hj => ?_, fun ce hce => ⟨ce, hce, rfl⟩⟩, fun j hj hfinal => ?_⟩
    · rw [hrows] at hj
      rcases mem_append.mp hj with hj | hj
      · exact .inl ⟨j, hj, rfl⟩
      · obtain ⟨ce, hce, rfl⟩ := mem_map.mp hj
        exact .inr ⟨ce, (mem_filter.mp hce).1, rfl⟩
    · rw [hrows] at hj
      rcases mem_append.mp hj with hj | hj
      · exact ⟨j, hj, rfl, rfl⟩
      · obtain ⟨ce, -, rfl⟩ := mem_map.mp hj
        rcases hfinal with hfinal | hfinal <;> cases hfinal
  · exact updateEntitlements_noneFinishes fun _ _ => rfl
  · exact noneFinishes_of_keeps (insert_off rfl)
  · exact noneFinishes_of_keeps (insert_off rfl)
  · exact audit_noneFinishes _ _ _

theorem cancelBuild_noneFinishes (job : ActionJob) (now : Time) :
    ∀ st ∈ cancelBuildStatements job now, Within NoneFinishes st := by
  intro st hst
  refine each_five ?_ ?_ ?_ ?_ ?_ _ hst
  · exact updateJobs_noneFinishes (fun _ _ => rfl) fun _ _ => ⟨by nofun, by nofun⟩
  · exact onChanges_within fun _ => noneFinishes_of_keeps (insert_off rfl)
  · exact onChanges_within fun _ => audit_noneFinishes _ _ _
  · exact onChanges_within fun _ => updateEntitlements_noneFinishes fun _ _ => rfl
  · exact noneFinishes_of_keeps (insert_off rfl)

theorem retryBuild_noneFinishes (job : ActionJob) (now : Time) :
    ∀ st ∈ retryBuildStatements job now, Within NoneFinishes st := by
  have hjob : ∀ p : Db → AutomationJob → Bool,
      Within NoneFinishes (update Db.automationJobsT p fun _ j => retriedJob now j) := fun p =>
    updateJobs_noneFinishes (fun _ _ => rfl) fun _ _ => ⟨by nofun, by nofun⟩
  have htail : ∀ st ∈ retryTailStatements job now, Within NoneFinishes st := by
    intro st hst
    exact each_three (noneFinishes_of_keeps (insert_off rfl)) (noneFinishes_of_keeps (insert_off rfl))
      (audit_noneFinishes _ _ _) _ hst
  intro st hst
  unfold retryBuildStatements at hst
  split at hst
  · simp only [cons_append, nil_append, mem_cons] at hst
    rcases hst with rfl | rfl | rfl | hst
    · exact updateEntitlements_noneFinishes fun _ _ => rfl
    · exact onChanges_within fun _ => hjob _
    · exact noneFinishes_of_keeps (insert_off rfl)
    · exact htail st hst
  · rcases mem_cons.mp hst with rfl | hst
    · exact hjob _
    · exact htail st hst

theorem maintenance_noneFinishes (now : Time) : ∀ st ∈ maintenanceStatements now, Within NoneFinishes st := by
  intro st hst
  refine each_two ?_ ?_ _ hst
  · exact updateEntitlements_noneFinishes fun _ _ => rfl
  · exact updateJobs_noneFinishes (fun _ _ => rfl) fun _ _ => ⟨by nofun, by nofun⟩

/-! ## Callbacks -/

theorem repeatedReport_noneFinishes (input : AutomationCallback) (now : Time) {c n : Nat} {s t : Db}
    (h : repeatedReportStatement input now c s = .ok (n, t)) : NoneFinishes s t := by
  unfold repeatedReportStatement at h
  refine ⟨updateJobs_itemsKept (f := fun _ j => reportedJob input now j) (fun _ _ => rfl) c s n t h, fun j hj _ => ?_⟩
  obtain ⟨-, rows, ht, rfl⟩ := update_ok h
  rw [show (Db.automationJobsT.set s rows).automationJobs.rows = _ from ht] at hj
  obtain ⟨x, hx, rfl⟩ := mem_map.mp hj
  by_cases hp : (x.id == input.jobId && x.status == input.status.job) = true
  · rw [if_pos hp]
    rw [Bool.and_eq_true, beq_iff_eq, beq_iff_eq] at hp
    exact ⟨x, hx, rfl, hp.2⟩
  · rw [if_neg hp]
    exact ⟨x, hx, rfl, rfl⟩

theorem callback_itemsKept {input : AutomationCallback} {now : Time} {c : Nat} {s t : Db} {ns : List Nat}
    (hb : batch (callbackStatements input now) c s = .ok (ns, t)) : ItemsKept s t := by
  refine batch_within .refl (fun _ _ _ h h' => h.trans h') (fun st hst => ?_) hb
  refine each_three ?_ ?_ ?_ _ hst
  · exact updateJobs_itemsKept fun _ _ => rfl
  · exact fun c s n t h => (noneFinishes_of_keeps (insert_off rfl) c s n t h).toItemsKept
  · exact fun c s n t h => (noneFinishes_of_keeps (insert_off rfl) c s n t h).toItemsKept

theorem selectJob_eq {β : Type} {s : Db} {j : AutomationJob} {jobId : Id} {st : JobStatus}
    (hget : s.automationJobs.get? jobId = some j) (hstatus : j.status = st) (f : AutomationJob → List β) :
    (s.automationJobs.rows.filter fun j => j.id == jobId && j.status == st).flatMap f = f j := by
  have hrows : (s.automationJobs.rows.filter fun j => j.id == jobId && j.status == st) = [j] := by
    rw [show (fun j : AutomationJob => j.id == jobId && j.status == st) =
      fun j => KeyedRow.key j == jobId && j.status == st from rfl, filter_key, hget]
    simp [hstatus]
  rw [hrows, flatMap_singleton]

def reportOutbox (jobId : Id) (st : CallbackStatus) (o : OutboxType × OrderEventType) : OutboxEvent :=
  { eventType := o.1, aggregateId := jobId, idempotencyKey := .automationCallback jobId st.job }

def reportEvent (jobId orderId : Id) (st : CallbackStatus) (o : OutboxType × OrderEventType) : ShopOrderEvent :=
  { actionEvent orderId o.2 with id := some (.automation jobId st.job) }

theorem reportOutbox_free {rows : List OutboxEvent} {jobId : Id} {st : CallbackStatus} {o : OutboxType × OrderEventType} :
    (rows.any fun x => Row.clash x (reportOutbox jobId st o)) = false ↔
      ∀ e ∈ rows, e.idempotencyKey ≠ .automationCallback jobId st.job := by
  rw [any_eq_false]
  refine forall₂_congr fun e _ => ?_
  show ¬ (e.idempotencyKey == _) = true ↔ _
  rw [beq_iff_eq]
  rfl

theorem reportEvent_free {rows : List ShopOrderEvent} {jobId orderId : Id} {st : CallbackStatus}
    {o : OutboxType × OrderEventType} : (rows.any fun x => Row.clash x (reportEvent jobId orderId st o)) = false ↔
      ∀ e ∈ rows, e.id ≠ some (.automation jobId st.job) := by
  rw [any_eq_false]
  refine forall₂_congr fun e _ => ?_
  show ¬ (e.orderId == orderId && e.orderVersion == none && e.orderVersion.isSome ||
    e.id == some (.automation jobId st.job) && e.id.isSome) = true ↔ _
  cases e.orderVersion <;> cases e.id <;> simp

theorem append_one_iff {ρ : Type} {xs ys : List ρ} {r : ρ} {b : Bool} (h : ys = xs ++ if b then [] else [r]) (r' : ρ) :
    ys = xs ++ [r'] ↔ b = false ∧ r' = r := by
  subst h
  cases b <;> simp [eq_comm]

theorem callback_reported_iff {input : AutomationCallback} {now : Time} {s t : Db} {ns : List Nat} (hs : JobItems s)
    (hb : batch (callbackStatements input now) 0 s = .ok (ns, t)) {jobId : Id} {st : CallbackStatus}
    (hfinish : JobFinishes jobId st s t) : ReportedOnce jobId st s t ↔ NotReportedYet jobId st s := by
  obtain ⟨hfinal, ⟨j, hj, hstatus⟩, hbefore⟩ := hfinish
  obtain ⟨n1, s1, ms1, h1, hb1, -⟩ := batch_cons_ok hb
  obtain ⟨n2, s2, ms2, h2, hb2, -⟩ := batch_cons_ok hb1
  obtain ⟨n3, s3, ms3, h3, hb3, -⟩ := batch_cons_ok hb2
  rw [batch_nil] at hb3
  obtain rfl : s3 = t := congrArg snd (Except.ok.inj hb3)
  have hjobs2 : s2.automationJobs = s1.automationJobs := Keeps.eq (insert_keeps (g := Db.automationJobs) fun _ _ => rfl) h2
  have hjobs3 : s3.automationJobs = s2.automationJobs := Keeps.eq (insert_keeps (g := Db.automationJobs) fun _ _ => rfl) h3
  have hget : s1.automationJobs.get? jobId = some j := by
    rw [← hjobs2, ← hjobs3]
    exact hj
  rcases update_key_cases (T := Db.automationJobsT) (k := input.jobId)
    (q := fun j => j.status == .dispatching || j.status == .running) (fun r => by rfl) h1
    with ⟨-, -, hsame⟩ | ⟨-, r, rows, hr, -, hrows, rfl⟩
  · -- the report found the job in another status
    refine absurd hstatus (hbefore j ?_)
    rw [hsame] at hget
    exact hget
  have hafter : rows.get? jobId = (s.automationJobs.get? jobId).map fun x =>
      if KeyedRow.key x = input.jobId then reportedJob input now x else x :=
    get?_map hrows (fun x => by
      split
      · rfl
      · rfl) jobId
  have hmap : (s.automationJobs.get? jobId).map (fun x =>
      if KeyedRow.key x = input.jobId then reportedJob input now x else x) = some j := hafter.symm.trans hget
  obtain ⟨x, hx, hxj⟩ := Option.map_eq_some_iff.mp hmap
  have hxid : KeyedRow.key x = jobId := get?_key hx
  by_cases hid : jobId = input.jobId
  swap
  · rw [if_neg (by rw [hxid]; exact hid)] at hxj
    exact absurd (hxj ▸ hstatus) (hbefore x hx)
  subst hid
  rw [if_pos hxid] at hxj
  subst hxj
  obtain rfl : st = input.status := CallbackStatus.job_injective hstatus.symm
  obtain ⟨o, ho⟩ := CallbackStatus.outcome_of_final hfinal
  obtain ⟨oi, hoi⟩ := Option.isSome_iff_exists.mp (hs.jobs x (get?_mem hx))
  have hxid : x.id = input.jobId := hxid
  -- each INSERT selects one row
  obtain ⟨outbox, rfl, houtbox⟩ := insert_skipping_one (r := reportOutbox input.jobId input.status o) (by
    refine (selectJob_eq hget hstatus _).trans ?_
    rw [ho, show (reportedJob input now x).id = input.jobId from hxid]
    rfl) h2
  obtain ⟨events, rfl, hevents⟩ := insert_skipping_one (r := reportEvent input.jobId oi.orderId input.status o) (by
    refine (selectJob_eq hget hstatus _).trans ?_
    rw [ho, show (reportedJob input now x).id = input.jobId from hxid]
    show (s.items.get? x.orderItemId).toList.flatMap _ = _
    rw [hoi]
    rfl) h3
  rw [NotReportedYet, ← reportOutbox_free (o := o), ← @reportEvent_free _ _ oi.orderId _ o]
  constructor
  · rintro ⟨_, -, _, -, _, -, _, _, houtbox', hevents'⟩
    exact ⟨((append_one_iff houtbox _).mp houtbox').1, ((append_one_iff hevents _).mp hevents').1⟩
  · rintro ⟨hkey, hid⟩
    exact ⟨o, ho, x, hx, oi, hoi, _, _, (append_one_iff houtbox _).mpr ⟨hkey, rfl⟩,
      (append_one_iff hevents _).mpr ⟨hid, rfl⟩⟩

/-! ## The calls -/

/-- A step that moves a job into a final status reports it exactly where it is a callback's and no key is taken. -/
def FinishReported (x : BuildSite) (s t : Db) (_ : Call BuildSite Unit) : Prop :=
  ∀ jobId st, JobFinishes jobId st s t →
    (ReportedOnce jobId st s t ↔ (∀ id, x ≠ .recordDispatchFailure id) ∧ NotReportedYet jobId st s)

def reportSpec : Spec Db BuildSite Empty :=
  .ofRel JobItems (fun _ _ => True) (fun _ _ => True) (fun _ _ => True) (fun _ => trivial) (fun _ => trivial)
    fun _ _ _ _ _ => trivial

theorem NoneFinishes.step {x : BuildSite} {s t : Db} {k : Call BuildSite Unit} (h : NoneFinishes s t)
    (hs : JobItems s) : reportSpec.Admits ∅ ∅ s t ∧ FinishReported x s t k :=
  ⟨Spec.admits_ofRel (h.toItemsKept.jobItems hs) trivial fun _ => trivial,
    fun jobId st hfinish => absurd hfinish (h.not_finishes jobId st)⟩

theorem recordDispatchFailure_itemsKept (jobId : Id) (attemptCount : Nat) (now : Time) :
    Within ItemsKept (recordDispatchFailureStatement jobId attemptCount now) := by
  unfold recordDispatchFailureStatement
  exact updateJobs_itemsKept fun _ _ => rfl

theorem DispatchBatch.report {e : DispatchEnv} {x : BuildSite} {sts : List (Stmt Db)} (h : DispatchBatch e x sts) :
    CommitOk reportSpec FinishReported x sts := by
  intro s ns t k hs _ hb
  cases h with
  | expire jobId =>
    refine (batch_noneFinishes (fun st hst => ?_) hb).step hs
    rw [mem_singleton.mp hst]
    exact updateJobs_noneFinishes (fun _ _ => rfl) fun _ _ => ⟨by nofun, by nofun⟩
  | claim jobId =>
    refine (batch_noneFinishes (fun st hst => ?_) hb).step hs
    rw [mem_singleton.mp hst]
    exact updateJobs_noneFinishes (fun _ _ => rfl) fun _ _ => ⟨by nofun, by nofun⟩
  | failure jobId attemptCount =>
    -- a dispatch that gives up leaves no event
    obtain ⟨n1, s1, ms1, h1, hb1, -⟩ := batch_cons_ok hb
    rw [batch_nil] at hb1
    obtain rfl : s1 = t := congrArg snd (Except.ok.inj hb1)
    have hkept : ItemsKept s s1 := recordDispatchFailure_itemsKept _ _ _ _ _ _ _ h1
    unfold recordDispatchFailureStatement at h1
    refine ⟨Spec.admits_ofRel (hkept.jobItems hs) trivial fun _ => trivial, fun id st _ => ⟨?_, ?_⟩⟩
    · rintro ⟨_, -, _, -, _, -, _, _, houtbox, -⟩
      obtain ⟨-, rows, -, rfl⟩ := update_ok h1
      have hlength := congrArg length houtbox
      rw [length_append, length_singleton] at hlength
      have hsame : (Db.automationJobsT.set s rows).outbox.rows.length = s.outbox.rows.length := rfl
      omega
    · rintro ⟨hsite, -⟩
      exact absurd rfl (hsite jobId)
  | record job run =>
    refine (batch_noneFinishes (fun st hst => ?_) hb).step hs
    refine each_two ?_ ?_ _ hst
    · exact updateJobs_noneFinishes (fun _ _ => rfl) fun _ _ => ⟨by nofun, by nofun⟩
    · exact audit_noneFinishes _ _ _

theorem buildCall_report (c : BuildCall) (s : Db) : Prog.Each reportSpec FinishReported c.code s := by
  cases c with
  | create input e =>
    exact createBuildJob_each fun _ _ t ns u k hi _ hb _ => (batch_noneFinishes (createBuild_noneFinishes _ _ _ _) hb).step hi
  | cancel jobId orderId now =>
    exact cancelBuildJob_each fun _ t ns u k _ hi _ hb _ => (batch_noneFinishes (cancelBuild_noneFinishes _ _) hb).step hi
  | retry jobId orderId e =>
    exact retryBuildJob_each fun _ t ns u k _ _ hi _ hb _ => (batch_noneFinishes (retryBuild_noneFinishes _ _) hb).step hi
  | dispatch jobId e =>
    refine dispatchBuild_each (fun x sts h => h.report) fun id t k hi _ => NoneFinishes.step ?_ hi
    exact ⟨⟨rfl, fun j hj => .inl ⟨j, hj, rfl⟩, fun ce hce => ⟨ce, hce, rfl⟩⟩, fun j hj _ => ⟨j, hj, rfl, rfl⟩⟩
  | callback sender input e =>
    refine processAutomationCallback_each fun job _ asked sts hsts t ns u k hi _ hb => ?_
    simp only [mem_cons, mk.injEq, not_mem_nil, or_false] at hsts
    rcases hsts with ⟨-, rfl⟩ | ⟨-, rfl⟩
    · obtain ⟨n1, s1, ms1, h1, hb1, -⟩ := batch_cons_ok hb
      rw [batch_nil] at hb1
      obtain rfl : s1 = u := congrArg snd (Except.ok.inj hb1)
      exact (repeatedReport_noneFinishes input e.now h1).step hi
    · refine ⟨Spec.admits_ofRel ((callback_itemsKept hb).jobItems hi) trivial fun _ => trivial, fun jobId st hfinish => ?_⟩
      rw [callback_reported_iff hi hb hfinish]
      exact ⟨fun h => ⟨nofun, h⟩, And.right⟩
  | maintenance now =>
    exact runMaintenance_each fun t ns u k hi _ hb => (batch_noneFinishes (maintenance_noneFinishes now) hb).step hi

/-- In every run, a step that moves a job into `succeeded` or `failed` leaves exactly one outbox event and one order
event where it is a callback's and no attempt of the job was reported in that status before, and else it does not. -/
theorem finish_reported_iff {s : Db} (h0 : JobItems s) {w : World Db BuildSite DomainError Unit}
    (hrun : Runs BuildCall.code (fun _ _ => True) ⟨s, []⟩ w) {i : Nat} {x : BuildSite} (hsite : w.site i = some x)
    {jobId : Id} {st : CallbackStatus}
    (hfinish : JobFinishes jobId st w.db (w.move BuildCall.code (fun _ _ => True) (.run i)).db) :
    ReportedOnce jobId st w.db (w.move BuildCall.code (fun _ _ => True) (.run i)).db ↔
      (∀ id, x ≠ .recordDispatchFailure id) ∧ NotReportedYet jobId st w.db := by
  have hcode : ∀ c s, reportSpec.inv s → Prog.Each reportSpec FinishReported (BuildCall.code c) s :=
    fun c s _ => buildCall_report c s
  let _ : ∀ x s, Decidable (reportSpec.cond x s) := fun _ _ => instDecidableTrue
  rcases Runs.move hcode h0 hrun hsite with heq | ⟨_, -, -, hreported⟩
  · have heq : (w.move BuildCall.code (fun _ _ => True) (.run i)).db = w.db := heq
    rw [heq] at hfinish
    exact absurd hfinish ((NoneFinishes.refl w.db).not_finishes jobId st)
  · exact hreported jobId st hfinish

/-! ## A job that fails twice -/

def runningBuildDb : Db where
  sellableItems := .ok [{ id := 7 }]
  items := .ok [{ id := 5, orderId := 3, sellableItemId := 7, deliveryComponentId := 7
                  deliveryComponentType := .automation, quantity := 1 }]
  entitlements := .ok [{ id := 2, userId := some 1, orderItemId := 5, sellableItemId := 7
                         status := .active, usageLimit := some 2, usageCount := 1 }]
  automationJobs := .ok [{ id := 9, entitlementId := 2, orderItemId := 5, sellableItemId := 7
                           provider := .gitlabCi, artifactRequired := false, idempotencyKey := 1
                           status := .running, providerJobId := some (.run 4), timeoutAt := 90
                           updatedAt := 4 }]
  remote := { builds := [⟨9, 4, 0⟩] }

theorem runningBuildDb_items : JobItems runningBuildDb where
  jobs := by decide
  entitlements := by decide

def failureReport (run attempt : Nat) (now : Time) : BuildCall :=
  .callback ⟨9, run, attempt⟩ { jobId := 9, status := .failed, providerJobId := some (.run run) } ⟨.ok (), false, now⟩

def firstFailureRun : World Db BuildSite DomainError Unit :=
  World.exec BuildCall.code (fun _ _ => True) ⟨runningBuildDb, []⟩ [.start (failureReport 4 0 5), .run 0]

/-- The job has failed, is retried and sent out, and the second attempt is about to be reported. -/
def secondFailureRun : World Db BuildSite DomainError Unit :=
  World.exec BuildCall.code (fun _ _ => True) ⟨runningBuildDb, []⟩
    [.start (failureReport 4 0 5), .run 0, .run 0, .start (.retry 9 none ⟨true, 10, 10⟩), .run 1, .run 1,
      .start (.dispatch 9 ⟨11, .ok (), .accepted 5 true, 11, 0⟩), .run 2, .run 2, .run 2, .run 2,
      .start (failureReport 5 1 12), .run 3]

def failureSite (run : Nat) : BuildSite :=
  .automationCallback ⟨9, run, run - 4⟩ 9 (some (.run run)) (some (.run run)) [.dispatching, .running]

theorem job_fails {s t : Db} (ht : (t.automationJobs.get? 9).map (·.status) = some .failed)
    (hs : (s.automationJobs.get? 9).map (·.status) = some .running) : JobFinishes 9 .failed s t where
  final := by decide
  after := by
    obtain ⟨j, hj, hstatus⟩ := Option.map_eq_some_iff.mp ht
    exact ⟨j, hj, hstatus⟩
  before := by
    intro j hj hfailed
    obtain ⟨j', hj', hstatus⟩ := Option.map_eq_some_iff.mp hs
    obtain rfl : j' = j := Option.some.inj (hj'.symm.trans hj)
    rw [hstatus] at hfailed
    cases hfailed

theorem firstFailureRun_unreported : NotReportedYet 9 .failed firstFailureRun.db := by
  constructor
  · rw [show firstFailureRun.db.outbox.rows = [] from by decide]
    exact fun e he => absurd he not_mem_nil
  · rw [show firstFailureRun.db.events.rows = [] from by decide]
    exact fun e he => absurd he not_mem_nil

theorem finish_reported_iff_first :
    ReportedOnce 9 .failed firstFailureRun.db (firstFailureRun.move BuildCall.code (fun _ _ => True) (.run 0)).db :=
  (finish_reported_iff runningBuildDb_items (World.exec_runs BuildCall.code (fun _ _ => True) _ _)
    (show firstFailureRun.site 0 = some (failureSite 4) from by decide)
    (job_fails (by decide) (by decide))).mpr
    ⟨nofun, firstFailureRun_unreported⟩

/-- The second failure leaves no event. -/
theorem not_finish_reported : ¬ ∀ s, JobItems s → ∀ w : World Db BuildSite DomainError Unit,
    Runs BuildCall.code (fun _ _ => True) ⟨s, []⟩ w → ∀ i jobId st,
    JobFinishes jobId st w.db (w.move BuildCall.code (fun _ _ => True) (.run i)).db →
    ReportedOnce jobId st w.db (w.move BuildCall.code (fun _ _ => True) (.run i)).db := by
  intro hall
  obtain ⟨_, -, _, -, _, -, _, _, houtbox, -⟩ := hall runningBuildDb runningBuildDb_items secondFailureRun
    (World.exec_runs BuildCall.code (fun _ _ => True) _ _) 3 9 .failed (job_fails (by decide) (by decide))
  have hlength := congrArg length houtbox
  rw [length_append, length_singleton,
    show (secondFailureRun.move BuildCall.code (fun _ _ => True) (.run 3)).db.outbox = secondFailureRun.db.outbox from by
      decide] at hlength
  omega

end Gmshop
