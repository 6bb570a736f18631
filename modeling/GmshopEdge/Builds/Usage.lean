import GmshopEdge.Builds.Calls
import GmshopEdge.Lib.Checked

/-!
# Build usage accounting

`usage_count` of an entitlement counts its jobs whose use was not given back. The count moves in
three batches only: the one that creates a job, a cancellation of a queued job, and a retry of a job
whose use was restored. Each of them moves the count, the jobs and the usage events of one
entitlement by the same amount (`UsageStep`), everything else leaves all three alone (`UsageQuiet`).

A retry decides whether it has to take a use back on a row that it read before its batch. The books
stay right as long as that row still has the status and the flag that were read
(`build_usage_accounted`); otherwise they go wrong (`not_build_usage_accounted`).
-/

namespace Gmshop

open List Sql Stmt Prog Table

/-! ## The books -/

def openUses (s : Db) (entitlementId : Id) : Nat :=
  s.automationJobs.count fun j => j.entitlementId == entitlementId && j.usageRestoredAt.isNone

def usageEventCount (s : Db) (entitlementId : Id) (eventType : UsageEventType) : Nat :=
  s.usageEvents.count fun ev => ev.entitlementId == entitlementId && ev.eventType == eventType

/-- The usage count of an entitlement is backed by its jobs and by its events. -/
structure UsageAccounted (s : Db) (ce : CustomerEntitlement) : Prop where
  jobs : ce.usageCount = openUses s ce.id
  limit : ∀ l ∈ ce.usageLimit, ce.usageCount ≤ l
  events : (ce.usageCount : Int) =
    (usageEventCount s ce.id .consumed : Int) - usageEventCount s ce.id .restored

/-- The invariant: only cancelled jobs have given their use back, each with its event, and every job
belongs to an entitlement. -/
structure UsageBooks (s : Db) : Prop where
  accounted : ∀ ce ∈ s.entitlements.rows, UsageAccounted s ce
  cancelled : ∀ j ∈ s.automationJobs.rows, j.usageRestoredAt ≠ none → j.status = .cancelled
  restored : ∀ j ∈ s.automationJobs.rows, ∀ t, j.usageRestoredAt = some t →
    ∃ ev ∈ s.usageEvents.rows, ev.idempotencyKey = .automationRestore j.id t
  owned : ∀ j ∈ s.automationJobs.rows, ∃ ce ∈ s.entitlements.rows, ce.id = j.entitlementId

def usageView (s : Db) :=
  (s.entitlements.rows.map fun ce => (ce.id, ce.usageCount),
    s.automationJobs.rows.map fun j => (j.id, j.entitlementId, j.usageRestoredAt), s.usageEvents.rows)

def usageCore (s : Db) := (s.entitlements, s.automationJobs, s.usageEvents)

def JobsKept (s t : Db) : Prop := ∀ i j, s.automationJobs.get? i = some j →
  ∃ j', t.automationJobs.get? i = some j' ∧ j'.entitlementId = j.entitlementId

theorem JobsKept.refl (s : Db) : JobsKept s s := fun _ j h => ⟨j, h, rfl⟩

variable {s t u : Db} {f g : AutomationJob → AutomationJob} {st : Stmt Db} {p : Db → AutomationJob → Bool}
  {d : Id → Int} {ce : CustomerEntitlement} {j : AutomationJob} {ns : List Nat} {job : ActionJob} {now : Time}
  {x : BuildSite} {sts : List (Stmt Db)}

theorem JobsKept.trans (h : JobsKept s t) (h' : JobsKept t u) : JobsKept s u := by
  intro i j hj
  obtain ⟨j', hj', he⟩ := h i j hj
  obtain ⟨j'', hj'', he'⟩ := h' i j' hj'
  exact ⟨j'', hj'', he'.trans he⟩

theorem jobs_mapped (h : t.automationJobs.rows = s.automationJobs.rows.map f)
    (hid : ∀ j ∈ s.automationJobs.rows, (f j).id = j.id)
    (he : ∀ j ∈ s.automationJobs.rows, (f j).entitlementId = j.entitlementId) : JobsKept s t := by
  intro i j hj
  have hmem := get?_mem hj
  refine ⟨f j, get?_eq_some_iff.mpr ⟨?_, ?_⟩, he j hmem⟩
  · rw [h]
    exact mem_map_of_mem hmem
  · exact (hid j hmem).trans (get?_key hj)

/-! ## Quiet steps -/

structure JobQuiet (j j' : AutomationJob) : Prop where
  id : j'.id = j.id
  entitlement : j'.entitlementId = j.entitlementId
  restoredAt : j'.usageRestoredAt = j.usageRestoredAt
  cancelled : j.usageRestoredAt ≠ none → j.status = .cancelled → j'.status = .cancelled

structure EntitlementQuiet (ce ce' : CustomerEntitlement) : Prop where
  id : ce'.id = ce.id
  count : ce'.usageCount = ce.usageCount
  limit : ce'.usageLimit = ce.usageLimit

structure UsageQuiet (s t : Db) : Prop where
  entitlements : ∃ f, (∀ ce, EntitlementQuiet ce (f ce)) ∧
    t.entitlements.rows = s.entitlements.rows.map f
  jobs : ∃ f, (∀ j ∈ s.automationJobs.rows, JobQuiet j (f j)) ∧
    t.automationJobs.rows = s.automationJobs.rows.map f
  events : t.usageEvents = s.usageEvents

theorem JobQuiet.refl (j : AutomationJob) : JobQuiet j j := ⟨rfl, rfl, rfl, fun _ h => h⟩

theorem EntitlementQuiet.refl (ce : CustomerEntitlement) : EntitlementQuiet ce ce := ⟨rfl, rfl, rfl⟩

theorem usageCore_eq (h : usageCore t = usageCore s) :
    t.entitlements = s.entitlements ∧ t.automationJobs = s.automationJobs ∧ t.usageEvents = s.usageEvents := by
  simpa only [usageCore, Prod.mk.injEq] using h

theorem UsageQuiet.of_core (h : usageCore t = usageCore s) : UsageQuiet s t := by
  obtain ⟨he, hj, hev⟩ := usageCore_eq h
  exact ⟨⟨id, EntitlementQuiet.refl, by rw [he, map_id]⟩, ⟨id, fun j _ => .refl j, by rw [hj, map_id]⟩, hev⟩

theorem UsageQuiet.refl (s : Db) : UsageQuiet s s := .of_core rfl

section

variable (h : UsageQuiet s t)
include h

theorem UsageQuiet.trans (h' : UsageQuiet t u) : UsageQuiet s u := by
  obtain ⟨f, hf, hfr⟩ := h.entitlements
  obtain ⟨f', hf', hfr'⟩ := h'.entitlements
  obtain ⟨g, hg, hgr⟩ := h.jobs
  obtain ⟨g', hg', hgr'⟩ := h'.jobs
  refine ⟨⟨f' ∘ f, fun ce => ?_, by rw [hfr', hfr, map_map]⟩,
    ⟨g' ∘ g, fun j hj => ?_, by rw [hgr', hgr, map_map]⟩, h'.events.trans h.events⟩
  · exact ⟨(hf' _).id.trans (hf ce).id, (hf' _).count.trans (hf ce).count, (hf' _).limit.trans (hf ce).limit⟩
  · have h1 := hg j hj
    have h2 := hg' (g j) (by rw [hgr]; exact mem_map_of_mem hj)
    refine ⟨h2.id.trans h1.id, h2.entitlement.trans h1.entitlement,
      h2.restoredAt.trans h1.restoredAt, fun hr hc => h2.cancelled ?_ (h1.cancelled hr hc)⟩
    rw [h1.restoredAt]
    exact hr

theorem UsageQuiet.openUses (e : Id) : openUses t e = openUses s e := by
  obtain ⟨g, hg, hgr⟩ := h.jobs
  exact count_eq_of_map hgr fun j hj => by rw [(hg j hj).entitlement, (hg j hj).restoredAt]

theorem UsageQuiet.usageView : usageView t = usageView s := by
  obtain ⟨f, hf, hfr⟩ := h.entitlements
  obtain ⟨g, hg, hgr⟩ := h.jobs
  unfold Gmshop.usageView
  rw [hfr, hgr, map_map, map_map, h.events]
  refine congrArg₂ Prod.mk (map_congr_left fun ce _ => ?_)
    (congrArg₂ Prod.mk (map_congr_left fun j hj => ?_) rfl)
  · simp only [Function.comp_apply, (hf ce).id, (hf ce).count]
  · simp only [Function.comp_apply, (hg j hj).id, (hg j hj).entitlement, (hg j hj).restoredAt]

theorem UsageQuiet.books (hb : UsageBooks s) : UsageBooks t := by
  obtain ⟨f, hf, hfr⟩ := h.entitlements
  obtain ⟨g, hg, hgr⟩ := h.jobs
  have hevents : ∀ e k, usageEventCount t e k = usageEventCount s e k := fun e k => by
    unfold usageEventCount
    rw [h.events]
  constructor
  · intro ce' hce'
    rw [hfr] at hce'
    obtain ⟨ce, hce, rfl⟩ := mem_map.mp hce'
    have ha := hb.accounted ce hce
    constructor
    · rw [(hf ce).id, (hf ce).count, h.openUses]
      exact ha.jobs
    · rw [(hf ce).count, (hf ce).limit]
      exact ha.limit
    · rw [(hf ce).id, (hf ce).count, hevents, hevents]
      exact ha.events
  · intro j' hj' hr
    rw [hgr] at hj'
    obtain ⟨j, hj, rfl⟩ := mem_map.mp hj'
    rw [(hg j hj).restoredAt] at hr
    exact (hg j hj).cancelled hr (hb.cancelled j hj hr)
  · intro j' hj' t' ht'
    rw [hgr] at hj'
    obtain ⟨j, hj, rfl⟩ := mem_map.mp hj'
    rw [(hg j hj).restoredAt] at ht'
    rw [(hg j hj).id, h.events]
    exact hb.restored j hj t' ht'
  · intro j' hj'
    rw [hgr] at hj'
    obtain ⟨j, hj, rfl⟩ := mem_map.mp hj'
    obtain ⟨ce, hce, hid⟩ := hb.owned j hj
    refine ⟨f ce, by rw [hfr]; exact mem_map_of_mem hce, ?_⟩
    rw [(hf ce).id, (hg j hj).entitlement]
    exact hid

theorem UsageQuiet.jobsKept : JobsKept s t := by
  obtain ⟨g, hg, hgr⟩ := h.jobs
  exact jobs_mapped hgr (fun j hj => (hg j hj).id) fun j hj => (hg j hj).entitlement

end

theorem keeps_usage (h : Keeps usageCore st) : Within UsageQuiet st :=
  fun c s n s' hs => .of_core (h c s n s' hs)

theorem updateJobs_quiet (hf : ∀ s j, p s j = true → JobQuiet j (f j)) :
    Within UsageQuiet (update Db.automationJobsT p fun _ => f) := by
  intro c s n s' h
  obtain ⟨-, t, ht, rfl⟩ := update_ok h
  refine ⟨⟨id, EntitlementQuiet.refl, (map_id _).symm⟩,
    ⟨fun j => if p s j then f j else j, fun j _ => ?_, ht⟩, rfl⟩
  dsimp only
  split
  · next hp => exact hf s j hp
  · exact JobQuiet.refl j

theorem updateEntitlements_quiet {p : Db → CustomerEntitlement → Bool}
    {f : CustomerEntitlement → CustomerEntitlement} (hf : ∀ ce, EntitlementQuiet ce (f ce)) :
    Within UsageQuiet (update Db.entitlementsT p fun _ => f) := by
  intro c s n s' h
  obtain ⟨-, t, ht, rfl⟩ := update_ok h
  refine ⟨⟨fun ce => if p s ce then f ce else ce, fun ce => ?_, ht⟩,
    ⟨id, fun j _ => .refl j, (map_id _).symm⟩, rfl⟩
  dsimp only
  split
  · exact hf ce
  · exact EntitlementQuiet.refl ce

theorem buildAudit_quiet (jobId : Id) (action : String) (p : AutomationJob → Bool) :
    Keeps usageCore (buildAuditStatement jobId action p) :=
  (insert_off rfl)

/-! ## Steps that move the books -/

/-- A step that moves the books of each entitlement by `d`. -/
structure UsageStep (d : Id → Int) (s t : Db) : Prop where
  entitlements : ∃ f, t.entitlements.rows = s.entitlements.rows.map f ∧
    ∀ ce ∈ s.entitlements.rows, (f ce).id = ce.id ∧ (f ce).usageLimit = ce.usageLimit ∧
      ((f ce).usageCount : Int) = ce.usageCount + d ce.id ∧
      ∀ l ∈ ce.usageLimit, ce.usageCount ≤ l → (f ce).usageCount ≤ l
  jobs : ∀ e, (openUses t e : Int) = openUses s e + d e
  events : ∀ e, (usageEventCount t e .consumed : Int) - usageEventCount t e .restored =
    (usageEventCount s e .consumed : Int) - usageEventCount s e .restored + d e

theorem UsageStep.accounted (h : UsageStep d s t) (ha : ∀ ce ∈ s.entitlements.rows, UsageAccounted s ce) :
    ∀ ce ∈ t.entitlements.rows, UsageAccounted t ce := by
  obtain ⟨f, hfr, hf⟩ := h.entitlements
  intro ce' hce'
  rw [hfr] at hce'
  obtain ⟨ce, hce, rfl⟩ := mem_map.mp hce'
  obtain ⟨hid, hlimit, hcount, hle⟩ := hf ce hce
  have hac := ha ce hce
  have hjobs := h.jobs ce.id
  have hevents := h.events ce.id
  constructor
  · rw [hid]
    have := hac.jobs
    omega
  · intro l hl
    rw [hlimit] at hl
    exact hle l hl (hac.limit l hl)
  · rw [hid]
    have := hac.events
    omega

theorem UsageStep.owner (h : UsageStep d s t) {i : Id} (hi : ∃ ce ∈ s.entitlements.rows, ce.id = i) :
    ∃ ce ∈ t.entitlements.rows, ce.id = i := by
  obtain ⟨f, hfr, hf⟩ := h.entitlements
  obtain ⟨ce, hce, rfl⟩ := hi
  exact ⟨f ce, by rw [hfr]; exact mem_map_of_mem hce, (hf ce hce).1⟩

theorem entitlement_moved {e : Id} {k : Int} {g : CustomerEntitlement → CustomerEntitlement}
    (hce : s.entitlements.get? e = some ce)
    (h : t.entitlements.rows = s.entitlements.rows.map fun x => if x.id = e then g x else x)
    (hid : (g ce).id = ce.id) (hlimit : (g ce).usageLimit = ce.usageLimit)
    (hcount : ((g ce).usageCount : Int) = ce.usageCount + k)
    (hle : ∀ l ∈ ce.usageLimit, ce.usageCount ≤ l → (g ce).usageCount ≤ l) :
    ∃ f, t.entitlements.rows = s.entitlements.rows.map f ∧
      ∀ x ∈ s.entitlements.rows, (f x).id = x.id ∧ (f x).usageLimit = x.usageLimit ∧
        ((f x).usageCount : Int) = x.usageCount + (if x.id = e then k else 0) ∧
        ∀ l ∈ x.usageLimit, x.usageCount ≤ l → (f x).usageCount ≤ l := by
  refine ⟨_, h, fun x hx => ?_⟩
  by_cases hxe : x.id = e
  · have hxce : x = ce := eq_of_key hx (get?_mem hce) (hxe.trans (get?_key hce).symm)
    subst hxce
    simp only [if_pos hxe]
    exact ⟨hid, hlimit, hcount, hle⟩
  · simp only [if_neg hxe]
    exact ⟨trivial, trivial, by omega, fun _ _ h => h⟩

theorem usageEvents_appended {ev : UsageEvent} (h : t.usageEvents.rows = s.usageEvents.rows ++ [ev]) (e : Id) :
    (usageEventCount t e .consumed : Int) - usageEventCount t e .restored =
      (usageEventCount s e .consumed : Int) - usageEventCount s e .restored +
        if e = ev.entitlementId then (if ev.eventType = .consumed then 1 else -1) else 0 := by
  unfold usageEventCount
  rw [count_append h, count_append h]
  by_cases he : e = ev.entitlementId
  · subst he
    cases hk : ev.eventType <;> simp [hk] <;> omega
  · have hne : (ev.entitlementId == e) = false := by simpa using Ne.symm he
    simp [hne, he]

theorem jobs_under (s : Db) (i : Id) {p q : AutomationJob → Bool} (hp : ∀ j, p j = (j.id == i && q j)) :
    s.automationJobs.rows.filter p = ((s.automationJobs.get? i).filter q).toList := by
  rw [show p = fun j => j.id == i && q j from funext hp]
  exact filter_key s.automationJobs i q

theorem jobs_under_id (s : Db) (i : Id) :
    (s.automationJobs.rows.filter fun j => j.id == i) = (s.automationJobs.get? i).toList := by
  rw [jobs_under s i (q := fun _ => true) fun j => (Bool.and_true _).symm]
  cases s.automationJobs.get? i <;> rfl

theorem job_rewritten (hj : s.automationJobs.get? j.id = some j) (hid : (g j).id = j.id)
    (h : t.automationJobs.rows = s.automationJobs.rows.map fun x => if x.id = j.id then g x else x) :
    t.automationJobs.get? j.id = some (g j) := by
  have hmem : g j ∈ t.automationJobs.rows := by
    rw [h]
    exact mem_map.mpr ⟨j, get?_mem hj, if_pos rfl⟩
  exact get?_eq_some_iff.mpr ⟨hmem, hid⟩

theorem openUses_rewritten (hj : j ∈ s.automationJobs.rows) (hent : (g j).entitlementId = j.entitlementId)
    (h : t.automationJobs.rows = s.automationJobs.rows.map fun x => if x.id = j.id then g x else x) (i : Id) :
    (openUses t i : Int) = openUses s i + if i = j.entitlementId then
      (if (g j).usageRestoredAt = none then 1 else 0) - (if j.usageRestoredAt = none then 1 else 0)
      else 0 := by
  have hcount := count_map_single (p := fun j => j.entitlementId == i && j.usageRestoredAt.isNone)
    h hj fun x _ (hx : x.id ≠ j.id) => by rw [if_neg hx]
  rw [if_pos rfl, hent] at hcount
  unfold openUses
  by_cases hi : i = j.entitlementId
  · subst hi
    rw [if_pos rfl]
    simp only [beq_self_eq_true, Bool.true_and] at hcount
    cases hg : (g j).usageRestoredAt <;> cases ho : j.usageRestoredAt <;>
      simp [hg, ho] at hcount ⊢ <;> omega
  · have hne : (j.entitlementId == i) = false := by simpa using Ne.symm hi
    rw [if_neg hi]
    simp only [hne, Bool.false_and, Bool.false_eq_true, if_false] at hcount
    omega

theorem UsageStep.books (hstep : UsageStep d s t) (hbooks : UsageBooks s) (hj : j ∈ s.automationJobs.rows)
    (hid : (g j).id = j.id) (hent : (g j).entitlementId = j.entitlementId)
    (h : t.automationJobs.rows = s.automationJobs.rows.map fun x => if x.id = j.id then g x else x)
    (hev : ∀ ev ∈ s.usageEvents.rows, ev ∈ t.usageEvents.rows)
    (hcancelled : (g j).usageRestoredAt ≠ none → (g j).status = .cancelled)
    (hrestored : ∀ r, (g j).usageRestoredAt = some r →
      ∃ ev ∈ t.usageEvents.rows, ev.idempotencyKey = .automationRestore j.id r) :
    UsageBooks t ∧ JobsKept s t := by
  -- the rows of `t` are `g j` and the other rows of `s`
  have hrow : ∀ x' ∈ t.automationJobs.rows, x' = g j ∨ x' ∈ s.automationJobs.rows := by
    intro x' hx'
    rw [h] at hx'
    obtain ⟨x, hx, rfl⟩ := mem_map.mp hx'
    by_cases hxj : x.id = j.id
    · rw [if_pos hxj, eq_of_key hx hj hxj]
      exact Or.inl rfl
    · rw [if_neg hxj]
      exact Or.inr hx
  have hget : s.automationJobs.get? j.id = some j := mem_get? hj
  refine ⟨⟨hstep.accounted hbooks.accounted, ?_, ?_, ?_⟩, ?_⟩
  · intro x' hx' hr
    rcases hrow x' hx' with rfl | hx
    · exact hcancelled hr
    · exact hbooks.cancelled x' hx hr
  · intro x' hx' r hr
    rcases hrow x' hx' with rfl | hx
    · rw [hid]
      exact hrestored r hr
    · obtain ⟨ev, hmem, hkey⟩ := hbooks.restored x' hx r hr
      exact ⟨ev, hev ev hmem, hkey⟩
  · intro x' hx'
    rcases hrow x' hx' with rfl | hx
    · rw [hent]
      exact hstep.owner (hbooks.owned j hj)
    · exact hstep.owner (hbooks.owned x' hx)
  · intro i x hx
    by_cases hi : i = j.id
    · subst hi
      cases hx.symm.trans hget
      exact ⟨g j, job_rewritten hget hid h, hent⟩
    · refine ⟨x, ?_, rfl⟩
      have hxi : x.id = i := get?_key hx
      refine get?_eq_some_iff.mpr ⟨?_, hxi⟩
      rw [h]
      exact mem_map.mpr ⟨x, get?_mem hx, if_neg (by rw [hxi]; exact hi)⟩

/-! ### Creating a job -/

theorem createBuild_step {input : CreateBuildInput} {context : CustomerEntitlement} {method : BuildMethod}
    {e : CreateBuildEnv} (hbooks : UsageBooks s) (hfree : s.automationJobs.get? e.jobId = none)
    (hb : batch (createBuildStatements input context method e) 0 s = .ok (ns, t)) :
    UsageBooks t ∧ JobsKept s t ∧ (usageView t = usageView s ∨ ns[0]? = some 1) := by
  obtain ⟨n1, s1, ms1, h1, hb1, hns⟩ := batch_cons_ok hb
  obtain ⟨n2, s2, ms2, h2, hb2, -⟩ := batch_cons_ok hb1
  obtain ⟨n3, s3, ms3, h3, hb3, -⟩ := batch_cons_ok hb2
  have htail : usageCore t = usageCore s3 := batch_keeps (fun st hst => by
    refine each_two ?_ ?_ _ hst
    · exact insert_off rfl
    · exact buildAudit_quiet _ _ _) hb3
  obtain ⟨hn1, tj, hj, rfl⟩ := insert_abort_ok h1
  have hrows : (s.entitlements.rows.filter fun ce => ce.id == context.id && ce.buildable e.now) =
      ((s.entitlements.get? context.id).filter (·.buildable e.now)).toList := filter_key _ _ _
  rw [hrows] at hj hn1
  cases hce : (s.entitlements.get? context.id).filter (·.buildable e.now) with
  | none =>
    rw [hce] at hj
    have htj : tj = s.automationJobs := ext_rows (hj.trans (append_nil _))
    subst htj
    -- no job was made, so the rest of the batch finds none
    have hs2 : s2 = s := update_miss h2 fun ce _ => by
      rw [Bool.and_eq_false_iff]
      refine Or.inr (exist_false_iff.mpr fun j hj => ?_)
      rw [beq_eq_false_iff_ne]
      intro hid
      have hget := mem_get? hj
      rw [show KeyedRow.key j = e.jobId from hid] at hget
      exact absurd (hfree.symm.trans hget) (by simp)
    subst hs2
    obtain ⟨-, te, hte, rfl⟩ := insert_abort_ok h3
    rw [jobs_under_id, hfree] at hte
    have hquiet : UsageQuiet s2 t :=
      .of_core (htail.trans (by
        rw [show te = s2.usageEvents from ext_rows (hte.trans (append_nil _))]
        rfl))
    exact ⟨hquiet.books hbooks, hquiet.jobsKept, Or.inl hquiet.usageView⟩
  | some ce =>
    obtain ⟨hget, hbuild⟩ := Option.filter_eq_some_iff.mp hce
    rw [hce] at hj hn1
    obtain ⟨job, hjob, hid, hent, hopen⟩ : ∃ job : AutomationJob,
        tj.rows = s.automationJobs.rows ++ [job] ∧ job.id = e.jobId ∧ job.entitlementId = ce.id ∧
          job.usageRestoredAt = none := ⟨_, hj, rfl, rfl, rfl⟩
    have hceid : ce.id = context.id := get?_key hget
    have hjget : tj.get? e.jobId = some job := by
      rw [get?_append_one hjob]
      exact if_pos hid.symm
    rcases update_key_cases (fun _ => rfl) h2 with ⟨-, hmiss, -⟩ | ⟨-, r, te, hr, -, hte, rfl⟩
    · have hno := hmiss ce hget
      rw [exist_false_iff] at hno
      have := hno job (get?_mem hjget)
      simp [hid] at this
    cases hr.symm.trans hget
    obtain ⟨-, tv, htv, rfl⟩ := insert_abort_ok h3
    rw [jobs_under_id, show (Db.entitlementsT.set (Db.automationJobsT.set s tj) te).automationJobs.get?
      e.jobId = some job from hjget] at htv
    obtain ⟨he, hjobs, hevents⟩ : t.entitlements = te ∧ t.automationJobs = tj ∧ t.usageEvents = tv :=
      usageCore_eq htail
    have hev : t.usageEvents.rows = s.usageEvents.rows ++ [⟨context.id, .consumed, .automation e.jobId⟩] := by
      rw [hevents]
      exact htv
    have hstep : UsageStep (fun i => if i = context.id then 1 else 0) s t := by
      refine ⟨entitlement_moved hget (by rw [he]; exact hte) rfl rfl rfl ?_, fun i => ?_, fun i => ?_⟩
      · -- the INSERT of the job has checked the limit
        intro l hl _
        rw [CustomerEntitlement.buildable, Bool.and_eq_true] at hbuild
        have := hbuild.2
        rw [Option.mem_def.mp hl] at this
        have hlt : ce.usageCount < l := by simpa using this
        exact hlt
      · have hcount : openUses t i = openUses s i + _ :=
          count_append (by rw [hjobs]; exact hjob)
        rw [hcount, countP_singleton, hent, hopen, hceid]
        by_cases hi : i = context.id
        · simp [hi]
        · simp [hi, Ne.symm hi]
      · rw [usageEvents_appended hev]
        by_cases hi : i = context.id <;> simp [hi]
    have hkept : ∀ ev ∈ s.usageEvents.rows, ev ∈ t.usageEvents.rows := fun ev hmem => by
      rw [hev]
      exact mem_append_left _ hmem
    refine ⟨⟨hstep.accounted hbooks.accounted, ?_, ?_, ?_⟩, ?_, Or.inr (by simp [hns, hn1])⟩
    · intro j hj' hr
      rw [hjobs, hjob, mem_append, mem_singleton] at hj'
      rcases hj' with hj' | rfl
      · exact hbooks.cancelled j hj' hr
      · exact absurd hopen hr
    · intro j hj' t' ht'
      rw [hjobs, hjob, mem_append, mem_singleton] at hj'
      rcases hj' with hj' | rfl
      · obtain ⟨ev, hev, hkey⟩ := hbooks.restored j hj' t' ht'
        exact ⟨ev, hkept ev hev, hkey⟩
      · rw [hopen] at ht'
        cases ht'
    · intro j hj'
      rw [hjobs, hjob, mem_append, mem_singleton] at hj'
      rcases hj' with hj' | rfl
      · exact hstep.owner (hbooks.owned j hj')
      · exact hstep.owner ⟨ce, get?_mem hget, hent.symm⟩
    · intro i j hj'
      exact ⟨j, by rw [hjobs]; exact get?_append hjob hj', rfl⟩

/-! ### Cancelling a job -/

theorem cancelEvents_ok {c n2 n3 : Nat} {s2 s3 : Db} (h2 : onChanges (fun changes => insert Db.eventsT .abort fun s =>
      (s.automationJobs.rows.filter fun j => j.id == job.job.id && j.status == .cancelled &&
        j.updatedAt == now && changes == 1).map fun _ => actionEvent job.orderId .automationCancelled)
      c s = .ok (n2, s2))
    (h3 : onChanges (fun changes => buildAuditStatement job.job.id "automation_job.cancelled" fun j =>
      j.status == .cancelled && j.updatedAt == now && changes == 1) n2 s2 = .ok (n3, s3)) :
    usageCore s3 = usageCore s ∧ n3 = if c = 1 ∧ ∃ j, s.automationJobs.get? job.job.id = some j ∧
      j.status = .cancelled ∧ j.updatedAt = now then 1 else 0 := by
  obtain ⟨hn2, te, -, rfl⟩ := insert_abort_ok (onChanges_ok h2)
  obtain ⟨hn3, ta, -, rfl⟩ := insert_abort_ok (onChanges_ok h3)
  refine ⟨rfl, ?_⟩
  rw [length_map, jobs_under s job.job.id (q := fun j => j.status == .cancelled && j.updatedAt == now && c == 1)
    fun j => by simp only [Bool.and_assoc]] at hn2
  rw [length_map, show (Db.eventsT.set s te).automationJobs = s.automationJobs from rfl,
    jobs_under s job.job.id (q := fun j => j.status == .cancelled && j.updatedAt == now && n2 == 1)
    fun j => by simp only [Bool.and_assoc]] at hn3
  cases hj : s.automationJobs.get? job.job.id with
  | none => simp [hn3, hj]
  | some j =>
    rw [hj] at hn2 hn3
    by_cases hc : j.status = .cancelled ∧ j.updatedAt = now
    · by_cases h1 : c = 1
      · have : n2 = 1 := by simpa [Option.filter, hc.1, hc.2, h1] using hn2
        simpa [Option.filter, hc.1, hc.2, h1, this] using hn3
      · have : n2 = 0 := by simpa [Option.filter, h1] using hn2
        simpa [Option.filter, this, h1] using hn3
    · have hfalse : (j.status == .cancelled && j.updatedAt == now) = false := by
        rw [Bool.and_eq_false_iff, beq_eq_false_iff_ne, beq_eq_false_iff_ne]
        exact not_and_or.mp hc
      have h0 : n3 = 0 := by simpa [Option.filter, hfalse] using hn3
      rw [h0, if_neg]
      rintro ⟨-, j', hj', hcc⟩
      cases hj'
      exact hc hcc

theorem UsageBooks.used (h : UsageBooks s) (hj : j ∈ s.automationJobs.rows) (hopen : j.usageRestoredAt = none) :
    ∃ ce, s.entitlements.get? j.entitlementId = some ce ∧ 0 < ce.usageCount := by
  obtain ⟨ce, hce, hid⟩ := h.owned j hj
  refine ⟨ce, get?_eq_some_iff.mpr ⟨hce, hid⟩, ?_⟩
  rw [(h.accounted ce hce).jobs]
  exact countP_pos_iff.mpr ⟨j, hj, by simp [hid, hopen]⟩

def restoreEvent (job : ActionJob) (now : Time) : UsageEvent :=
  { entitlementId := job.job.entitlementId, eventType := .restored
    idempotencyKey := .automationRestore job.job.id now }

theorem cancelBuild_parts (hb : batch (cancelBuildStatements job now) 0 s = .ok (ns, t)) :
    ∃ n1 s1 n3 s3 n4 s4, ns[0]? = some n1 ∧ update Db.automationJobsT (fun _ j => j.id == job.job.id && j.status.live)
        (fun _ j => cancelledJob now j) 0 s = .ok (n1, s1) ∧
      usageCore s3 = usageCore s1 ∧
      (n3 = if n1 = 1 ∧ ∃ j, s1.automationJobs.get? job.job.id = some j ∧ j.status = .cancelled ∧
        j.updatedAt = now then 1 else 0) ∧
      update Db.entitlementsT (fun s ce => ce.id == job.job.entitlementId && decide (0 < ce.usageCount) &&
          (s.automationJobs.exist fun j => j.id == job.job.id && j.status == .cancelled &&
            j.usageRestoredAt == some now) && n3 == 1)
        (fun _ ce => ce.restore now) n3 s3 = .ok (n4, s4) ∧
      t.entitlements = s4.entitlements ∧ t.automationJobs = s4.automationJobs ∧
      t.usageEvents.rows = s4.usageEvents.rows ++
        if ∃ j, s4.automationJobs.get? job.job.id = some j ∧ j.usageRestoredAt = some now then
          [restoreEvent job now] else [] := by
  obtain ⟨n1, s1, ms1, h1, hb1, hns⟩ := batch_cons_ok hb
  obtain ⟨n2, s2, n3, s3, n4, s4, n5, s5, h2, h3, h4, h5, rfl⟩ := batch_four_ok hb1
  obtain ⟨hcore, hn3⟩ := cancelEvents_ok h2 h3
  obtain ⟨-, te, hte, rfl⟩ := insert_abort_ok h5
  rw [jobs_under s4 job.job.id (q := fun j => j.usageRestoredAt == some now) fun _ => rfl] at hte
  refine ⟨n1, s1, n3, s3, n4, s4, by rw [hns]; rfl, h1, hcore, hn3, onChanges_ok h4, rfl, rfl, ?_⟩
  refine hte.trans (congrArg (s4.usageEvents.rows ++ ·) ?_)
  cases hj : s4.automationJobs.get? job.job.id with
  | none => simp
  | some j =>
    by_cases hnow : j.usageRestoredAt = some now
    · rw [Option.filter_some_pos (by simpa using hnow), if_pos ⟨j, rfl, hnow⟩]
      rfl
    · rw [Option.filter_some_neg (by simpa using hnow), if_neg]
      · rfl
      · rintro ⟨x, hx, hxnow⟩
        cases hx
        exact hnow hxnow

theorem cancelBuild_miss (hbooks : UsageBooks s) (hb : batch (cancelBuildStatements job now) 0 s = .ok (ns, t))
    (hmiss : ∀ j, s.automationJobs.get? job.job.id = some j → j.status.live = false) : UsageQuiet s t := by
  obtain ⟨n1, s1, n3, s3, n4, s4, -, h1, hcore, hn3, h4, he, hj, hev⟩ := cancelBuild_parts hb
  obtain ⟨rfl, -, rfl⟩ := (update_key_cases (q := JobStatus.live ∘ AutomationJob.status)
    (fun _ => rfl) h1).resolve_right fun ⟨_, j, _, hget, hlive, _⟩ => by
      rw [Function.comp_apply, hmiss j hget] at hlive
      cases hlive
  rw [if_neg (fun h => absurd h.1 (by decide))] at hn3
  subst hn3
  have hs4 : s4 = s3 := update_miss h4 fun ce _ => by simp
  subst hs4
  obtain ⟨hce3, hjobs3, hev3⟩ := usageCore_eq hcore
  have hno : ¬∃ j, s4.automationJobs.get? job.job.id = some j ∧ j.usageRestoredAt = some now := by
    rintro ⟨j, hget, hnow⟩
    rw [if_pos ⟨j, hget, hnow⟩] at hev
    rw [hjobs3] at hget
    have hid : j.id = job.job.id := get?_key hget
    obtain ⟨ev, hmem, hkey⟩ := hbooks.restored j (get?_mem hget) now hnow
    have hfresh := distinct_append hev (hev3 ▸ hmem)
    simp [Row.clash, restoreEvent, hkey, hid] at hfresh
  rw [if_neg hno] at hev
  refine .of_core (Eq.trans ?_ hcore)
  unfold usageCore
  rw [he, hj, ext_rows (hev.trans (append_nil _))]

theorem cancelBuild_hit (hbooks : UsageBooks s) (hget : s.automationJobs.get? job.job.id = some j)
    (hread : j.entitlementId = job.job.entitlementId) (hlive : j.status.live = true)
    (hb : batch (cancelBuildStatements job now) 0 s = .ok (ns, t)) :
    UsageBooks t ∧ JobsKept s t ∧ ns[0]? = some 1 := by
  obtain ⟨n1, s1, n3, s3, n4, s4, hns, h1, hcore, hn3, h4, he, hj, hev⟩ := cancelBuild_parts hb
  obtain ⟨rfl, r, tj, hr, -, htj, rfl⟩ := (update_key_cases (q := JobStatus.live ∘ AutomationJob.status)
    (fun _ => rfl) h1).resolve_left fun ⟨_, hmiss, _⟩ => by
      have := hmiss j hget
      rw [Function.comp_apply, hlive] at this
      cases this
  cases hr.symm.trans hget
  obtain ⟨hce3, hjobs3, hev3⟩ := usageCore_eq hcore
  have hmem := get?_mem hget
  have hid : j.id = job.job.id := get?_key hget
  have hopen : j.usageRestoredAt = none := by
    by_contra hne
    rw [hbooks.cancelled j hmem hne] at hlive
    cases hlive
  have hrow : tj.rows = s.automationJobs.rows.map fun x => if x.id = j.id then cancelledJob now x else x := by
    rw [hid]
    exact htj
  have hjget : s3.automationJobs.get? job.job.id = some (cancelledJob now j) := by
    rw [hjobs3, ← hid]
    exact job_rewritten (t := Db.automationJobsT.set s tj) (by rw [hid]; exact hget) rfl hrow
  rw [if_pos ⟨rfl, _, by rw [← hjobs3]; exact hjget, rfl, rfl⟩] at hn3
  subst hn3
  obtain ⟨ce, hce, hpos⟩ := hbooks.used hmem hopen
  rw [hread] at hce
  have hrestored : (cancelledJob now j).usageRestoredAt = if j.status = .queued then some now else none := by
    unfold cancelledJob
    rw [hopen]
  have hjobsT : t.automationJobs.rows =
      s.automationJobs.rows.map fun x => if x.id = j.id then cancelledJob now x else x := by
    have hs4 : s4.automationJobs = s3.automationJobs :=
      Keeps.eq (update_keeps (g := Db.automationJobs) fun _ _ => rfl) h4
    rw [hj, hs4, hjobs3]
    exact hrow
  have hs4get : s4.automationJobs.get? job.job.id = some (cancelledJob now j) := by
    rw [← hj, ← hid]
    exact job_rewritten (by rw [hid]; exact hget) rfl hjobsT
  have hs4ev : s4.usageEvents = s.usageEvents := by
    have hs4 : s4.usageEvents = s3.usageEvents :=
      Keeps.eq (update_keeps (g := Db.usageEvents) fun _ _ => rfl) h4
    exact hs4.trans hev3
  by_cases hq : j.status = .queued
  · -- the use goes back to the entitlement, which has at least this one
    rw [if_pos hq] at hrestored
    have hce3' : s3.entitlements.get? job.job.entitlementId = some ce := by rw [hce3]; exact hce
    have hyes : (s3.automationJobs.exist fun j => j.id == job.job.id && j.status == .cancelled &&
        j.usageRestoredAt == some now) = true :=
      exist_iff.mpr ⟨_, get?_mem hjget, by
        rw [hrestored]
        simp [cancelledJob, hid]⟩
    obtain ⟨-, x, tc, hx, -, htc, rfl⟩ := (update_key_cases (k := job.job.entitlementId)
      (q := fun ce : CustomerEntitlement => decide (0 < ce.usageCount) &&
        (s3.automationJobs.exist fun j => j.id == job.job.id && j.status == .cancelled &&
          j.usageRestoredAt == some now) && (1 : Nat) == 1)
      (fun ce => by simp only [Bool.and_assoc]; rfl) h4).resolve_left fun ⟨_, hmiss, _⟩ => by
        have hno := hmiss ce hce3'
        rw [hyes] at hno
        simp [hpos] at hno
    cases hx.symm.trans hce3'
    rw [if_pos ⟨_, hs4get, hrestored⟩, hs4ev] at hev
    have htrows : t.entitlements.rows = s.entitlements.rows.map fun x =>
        if x.id = job.job.entitlementId then x.restore now else x := by
      rw [he]
      exact htc.trans (by rw [show Db.entitlementsT.get s3 = s.entitlements from hce3]; rfl)
    have hstep : UsageStep (fun i => if i = job.job.entitlementId then -1 else 0) s t := by
      refine ⟨entitlement_moved hce htrows rfl rfl ?_ ?_, fun i => ?_, fun i => ?_⟩
      · show ((ce.usageCount - 1 : Nat) : Int) = _
        omega
      · intro l _ hle
        show ce.usageCount - 1 ≤ l
        omega
      · rw [openUses_rewritten hmem rfl hjobsT, hrestored, hopen, hread]
        simp
      · rw [usageEvents_appended hev]
        rfl
    obtain ⟨hb', hk'⟩ := hstep.books hbooks hmem rfl rfl hjobsT
      (fun ev hmem => by rw [hev]; exact mem_append_left _ hmem) (fun _ => rfl) fun r hr => by
        refine ⟨restoreEvent job now, by rw [hev]; simp, ?_⟩
        rw [hrestored] at hr
        cases hr
        rw [hid]
        rfl
    exact ⟨hb', hk', hns⟩
  · -- a job that was sent out keeps its use
    rw [if_neg hq] at hrestored
    have hs4 : s4 = s3 := update_miss h4 fun x _ => by
      rw [show (s3.automationJobs.exist fun j => j.id == job.job.id && j.status == .cancelled &&
        j.usageRestoredAt == some now) = false from exist_false_iff.mpr fun y hy => by
          by_cases hyid : y.id = job.job.id
          · have := eq_of_key hy (get?_mem hjget) (hyid.trans (get?_key hjget).symm)
            rw [this, hrestored]
            simp
          · simp [hyid]]
      simp
    subst hs4
    have hnone : ¬∃ x, s4.automationJobs.get? job.job.id = some x ∧ x.usageRestoredAt = some now := by
      rintro ⟨x, hx, hxr⟩
      cases hx.symm.trans hs4get
      rw [hrestored] at hxr
      cases hxr
    rw [if_neg hnone, hs4ev] at hev
    have hquiet : UsageQuiet s t := by
      refine ⟨⟨id, EntitlementQuiet.refl, by rw [he, hce3, map_id]; rfl⟩,
        ⟨_, fun x hx => ?_, hjobsT⟩, ext_rows (hev.trans (append_nil _))⟩
      by_cases hxj : x.id = j.id
      · rw [if_pos hxj, eq_of_key hx hmem hxj]
        exact ⟨rfl, rfl, hrestored.trans hopen.symm, fun _ _ => rfl⟩
      · rw [if_neg hxj]
        exact .refl x
    exact ⟨hquiet.books hbooks, hquiet.jobsKept, hns⟩

/-! ### Retrying a job -/

/-- What a retry needs to find when its batch commits. `restored`: the job still has the status that
was read and its use given back, or there is nothing to charge and no job queued at that time.
Otherwise: the job does not have the status that was read together with a use given back since. -/
def RetryCurrent (s : Db) (jobId : Id) (status : JobStatus) (restored : Bool) (now : Time) : Prop :=
  ∀ j ∈ s.automationJobs.get? jobId,
    if restored then (j.status = status ∧ j.usageRestoredAt ≠ none) ∨
      ((∀ ce ∈ s.entitlements.get? j.entitlementId, ce.reconsumable now = false) ∧ queuedAt now j = false)
    else j.status = status → j.usageRestoredAt = none

instance (s : Db) (jobId : Id) (status : JobStatus) (restored : Bool) (now : Time) :
    Decidable (RetryCurrent s jobId status restored now) :=
  inferInstanceAs (Decidable (∀ j ∈ s.automationJobs.get? jobId, ite _ _ _))

theorem retryTail_keeps (job : ActionJob) (now : Time) (h : st ∈ retryTailStatements job now) :
    Keeps usageCore st := by
  exact each_three (insert_off rfl) (insert_off rfl) (buildAudit_quiet _ _ _) _ h

theorem retryBuild_kept (hflag : job.job.usageRestoredAt.isSome = false)
    (hcur : RetryCurrent s job.job.id job.job.status false now)
    (hb : batch (retryBuildStatements job now) 0 s = .ok (ns, t)) : UsageQuiet s t := by
  rw [retryBuildStatements, if_neg (by rw [hflag]; decide)] at hb
  obtain ⟨n1, s1, ms1, h1, hb1, -⟩ := batch_cons_ok hb
  have htail : usageCore t = usageCore s1 := batch_keeps (fun st hst => retryTail_keeps job now hst) hb1
  refine .trans ?_ (.of_core htail)
  obtain ⟨-, tj, htj, rfl⟩ := update_ok h1
  refine ⟨⟨id, EntitlementQuiet.refl, (map_id _).symm⟩, ⟨_, fun j hj => ?_, htj⟩, rfl⟩
  split
  · next hp =>
    rw [Bool.and_eq_true, beq_iff_eq, beq_iff_eq] at hp
    have hopen := hcur j (by rw [← hp.1]; exact mem_get? hj) hp.2
    exact ⟨rfl, rfl, hopen.symm, fun hr => absurd hopen hr⟩
  · exact .refl j

theorem retryBuild_miss (hflag : job.job.usageRestoredAt.isSome = true)
    (hce : ∀ ce ∈ s.entitlements.get? job.job.entitlementId, ce.reconsumable now = false)
    (hjob : ∀ j ∈ s.automationJobs.get? job.job.id, queuedAt now j = false)
    (hb : batch (retryBuildStatements job now) 0 s = .ok (ns, t)) : usageCore t = usageCore s := by
  rw [retryBuildStatements, if_pos hflag] at hb
  obtain ⟨n1, s1, ms1, h1, hb1, -⟩ := batch_cons_ok hb
  obtain ⟨n2, s2, ms2, h2, hb2, -⟩ := batch_cons_ok hb1
  obtain ⟨n3, s3, ms3, h3, hb3, -⟩ := batch_cons_ok hb2
  have htail : usageCore t = usageCore s3 := batch_keeps (fun st hst => retryTail_keeps job now hst) hb3
  obtain ⟨rfl, -, rfl⟩ := (update_key_cases (q := CustomerEntitlement.reconsumable now)
    (fun _ => rfl) h1).resolve_right fun ⟨_, ce, _, hget, hq, _⟩ => by
      rw [hce ce hget] at hq
      cases hq
  have hs2 : s2 = s := update_miss (onChanges_ok h2) fun j _ => by simp
  subst hs2
  obtain ⟨-, tv, htv, rfl⟩ := insert_abort_ok h3
  rw [jobs_under s2 job.job.id (q := queuedAt now) fun _ => rfl] at htv
  have hnone : (s2.automationJobs.get? job.job.id).filter (queuedAt now) = none := by
    rw [Option.filter_eq_none_iff]
    intro j hj
    rw [hjob j hj]
    decide
  rw [hnone] at htv
  rw [htail, show tv = s2.usageEvents from ext_rows (htv.trans (append_nil _))]
  rfl

def reconsumeEvent (job : ActionJob) (now : Time) : UsageEvent :=
  { entitlementId := job.job.entitlementId, eventType := .consumed
    idempotencyKey := .automationReconsume job.job.id now }

theorem retryBuild_hit (hbooks : UsageBooks s) (hflag : job.job.usageRestoredAt.isSome = true)
    (hget : s.automationJobs.get? job.job.id = some j) (hread : j.entitlementId = job.job.entitlementId)
    (hstatus : j.status = job.job.status) (hrestored : j.usageRestoredAt ≠ none)
    (hce : s.entitlements.get? job.job.entitlementId = some ce) (hfit : ce.reconsumable now = true)
    (hb : batch (retryBuildStatements job now) 0 s = .ok (ns, t)) :
    UsageBooks t ∧ JobsKept s t ∧ ns[0]? = some 1 ∧ ns[1]? = some 1 := by
  rw [retryBuildStatements, if_pos hflag] at hb
  obtain ⟨n1, s1, ms1, h1, hb1, hns⟩ := batch_cons_ok hb
  obtain ⟨n2, s2, ms2, h2, hb2, hms⟩ := batch_cons_ok hb1
  obtain ⟨n3, s3, ms3, h3, hb3, -⟩ := batch_cons_ok hb2
  have htail : usageCore t = usageCore s3 := batch_keeps (fun st hst => retryTail_keeps job now hst) hb3
  obtain ⟨rfl, x, tc, hx, -, htc, rfl⟩ := (update_key_cases (q := CustomerEntitlement.reconsumable now)
    (fun _ => rfl) h1).resolve_left fun ⟨_, hmiss, _⟩ => by
      rw [hmiss ce hce] at hfit
      cases hfit
  cases hx.symm.trans hce
  obtain ⟨rfl, y, tj, hy, -, htj, rfl⟩ := (update_key_cases (k := job.job.id)
    (q := fun j : AutomationJob => j.status == job.job.status && (1 : Nat) == 1)
    (fun _ => Bool.and_assoc _ _ _) (onChanges_ok h2)).resolve_left fun ⟨_, hmiss, _⟩ => by
      have := hmiss j hget
      simp [hstatus] at this
  cases hy.symm.trans hget
  obtain ⟨-, tv, htv, rfl⟩ := insert_abort_ok h3
  have hmem := get?_mem hget
  have hid : j.id = job.job.id := get?_key hget
  have hrow : tj.rows = s.automationJobs.rows.map fun x => if x.id = j.id then retriedJob now x else x := by
    rw [hid]
    exact htj
  have hjget : tj.get? job.job.id = some (retriedJob now j) := by
    rw [← hid]
    exact job_rewritten (t := Db.automationJobsT.set s tj) (by rw [hid]; exact hget) rfl hrow
  obtain ⟨he, hj, hv⟩ : t.entitlements = tc ∧ t.automationJobs = tj ∧ t.usageEvents = tv :=
    usageCore_eq htail
  have hjobsT : t.automationJobs.rows =
      s.automationJobs.rows.map fun x => if x.id = j.id then retriedJob now x else x := by
    rw [hj]
    exact hrow
  have hev : t.usageEvents.rows = s.usageEvents.rows ++ [reconsumeEvent job now] := by
    rw [hv, htv, jobs_under _ job.job.id (q := queuedAt now) fun _ => rfl]
    rw [show (Db.automationJobsT.set (Db.entitlementsT.set s tc) tj).automationJobs.get? job.job.id =
      some (retriedJob now j) from hjget, Option.filter_some_pos (by simp [queuedAt, retriedJob])]
    rfl
  have hstep : UsageStep (fun i => if i = job.job.entitlementId then 1 else 0) s t := by
    refine ⟨entitlement_moved hce (by rw [he]; exact htc) rfl rfl rfl ?_, fun i => ?_, fun i => ?_⟩
    · -- the statement has checked the limit
      intro l hl _
      rw [CustomerEntitlement.reconsumable, Bool.and_eq_true] at hfit
      have := hfit.2
      rw [Option.mem_def.mp hl] at this
      have hlt : ce.usageCount < l := by simpa using this
      exact hlt
    · rw [openUses_rewritten hmem rfl hjobsT, hread, if_neg hrestored]
      simp [retriedJob]
    · rw [usageEvents_appended hev]
      rfl
  obtain ⟨hb', hk'⟩ := hstep.books hbooks hmem rfl rfl hjobsT
    (fun ev hmem => by rw [hev]; exact mem_append_left _ hmem)
    (fun hr => absurd rfl hr) (fun r hr => nomatch hr)
  exact ⟨hb', hk', by rw [hns]; rfl, by rw [hns, hms]; rfl⟩

theorem retryBuild_step {restored : Bool} (hbooks : UsageBooks s)
    (hflag : restored = job.job.usageRestoredAt.isSome) (hretry : job.job.status.retryable = true)
    (hread : ∃ j, s.automationJobs.get? job.job.id = some j ∧
      j.entitlementId = job.job.entitlementId) (hcur : RetryCurrent s job.job.id job.job.status restored now)
    (hb : batch (retryBuildStatements job now) 0 s = .ok (ns, t)) :
    UsageBooks t ∧ JobsKept s t ∧
      (usageView t = usageView s ∨ restored = true ∧ ns[0]? = some 1 ∧ ns[1]? = some 1) := by
  obtain ⟨j, hget, hread⟩ := hread
  cases hr : restored with
  | false =>
    rw [hr] at hcur hflag
    have hquiet := retryBuild_kept hflag.symm hcur hb
    exact ⟨hquiet.books hbooks, hquiet.jobsKept, Or.inl hquiet.usageView⟩
  | true =>
    rw [hr] at hcur hflag
    have hj := hcur j hget
    rw [if_pos rfl] at hj
    by_cases hfit : ∃ ce ∈ s.entitlements.get? job.job.entitlementId, ce.reconsumable now = true
    · obtain ⟨ce, hce, hfit⟩ := hfit
      rcases hj with ⟨hstatus, hrestored⟩ | ⟨hno, -⟩
      · obtain ⟨hb', hk', h0, h1⟩ := retryBuild_hit hbooks hflag.symm hget hread hstatus hrestored hce hfit hb
        exact ⟨hb', hk', Or.inr ⟨rfl, h0, h1⟩⟩
      · rw [hno ce (by rw [hread]; exact hce)] at hfit
        cases hfit
    · have hquiet : UsageQuiet s t := by
        refine .of_core (retryBuild_miss hflag.symm (fun ce hce => ?_) (fun y hy => ?_) hb)
        · rw [← Bool.not_eq_true]
          exact fun h => hfit ⟨ce, hce, h⟩
        · cases hget.symm.trans hy
          rcases hj with ⟨hstatus, -⟩ | ⟨-, hno⟩
          · -- a job that can be retried is not queued
            rw [queuedAt, hstatus]
            cases hs : job.job.status <;> rw [hs] at hretry <;> first | rfl | cases hretry
          · exact hno
      exact ⟨hquiet.books hbooks, hquiet.jobsKept, Or.inl hquiet.usageView⟩

theorem cancelBuild_step (hbooks : UsageBooks s) (hread : ∃ j, s.automationJobs.get? job.job.id = some j ∧
      j.entitlementId = job.job.entitlementId) (hb : batch (cancelBuildStatements job now) 0 s = .ok (ns, t)) :
    UsageBooks t ∧ JobsKept s t ∧ (usageView t = usageView s ∨ ns[0]? = some 1) := by
  obtain ⟨j, hget, hread⟩ := hread
  cases hlive : j.status.live with
  | false =>
    have hquiet := cancelBuild_miss hbooks hb fun x hx => by
      cases hget.symm.trans hx
      exact hlive
    exact ⟨hquiet.books hbooks, hquiet.jobsKept, Or.inl hquiet.usageView⟩
  | true =>
    obtain ⟨hb', hk', h0⟩ := cancelBuild_hit hbooks hget hread hlive hb
    exact ⟨hb', hk', Or.inr h0⟩

/-! ## The calls -/

/-- What the books need of the state a batch is committed in: the id of a new job is unused, and a
retry finds what it has read (`RetryCurrent`). -/
def usageCurrent : BuildSite → Db → Prop
  | .createBuildJob jobId, s => s.automationJobs.get? jobId = none
  | .retryBuildJob jobId status restored now, s => RetryCurrent s jobId status restored now
  | _, _ => True

instance (x : BuildSite) (s : Db) : Decidable (usageCurrent x s) :=
  match x with
  | .createBuildJob jobId => inferInstanceAs (Decidable (s.automationJobs.get? jobId = none))
  | .retryBuildJob jobId status restored now =>
    inferInstanceAs (Decidable (RetryCurrent s jobId status restored now))
  | .cancelBuildJob _ | .expireBuild _ | .claimBuild _ | .requestBuild _ _
  | .recordDispatchFailure _ | .recordDispatch _ _ | .automationCallback _ _ _ _ _ | .runMaintenance =>
    isTrue trivial

def usageSpec : Spec Db BuildSite Empty :=
  .ofRel UsageBooks usageCurrent (fun _ _ => True) JobsKept (fun _ => trivial) JobsKept.refl
    fun _ _ _ => JobsKept.trans

/-- An action that changes what the books count is the last one of a call that answers. -/
def Answered (_ : BuildSite) (s t : Db) (k : Call BuildSite Unit) : Prop :=
  usageView t = usageView s ∨ ∃ a, k = .done a

theorem usageSpec_admits (hb : UsageBooks t) (hk : JobsKept s t) : usageSpec.Admits ∅ ∅ s t :=
  Spec.admits_ofRel hb trivial fun _ => hk

theorem quiet_commit (hsts : ∀ st ∈ sts, Within UsageQuiet st) : CommitOk usageSpec Answered x sts := by
  intro t ns u k hi _ hb
  have hquiet : UsageQuiet t u :=
    batch_within UsageQuiet.refl (fun _ _ _ h h' => h.trans h') hsts hb
  exact ⟨usageSpec_admits (hquiet.books hi) hquiet.jobsKept, Or.inl hquiet.usageView⟩

theorem JobRead.still {jobId : Id} {job : AutomationJob} (h : JobRead usageSpec jobId job t) :
    ∃ j, t.automationJobs.get? jobId = some j ∧ j.entitlementId = job.entitlementId := by
  obtain ⟨s, hr, hget⟩ := h
  exact hr jobId job hget

theorem updateJobs_uncancelled (hp : ∀ s j, p s j = true → j.status ≠ .cancelled) (hid : ∀ j, (f j).id = j.id)
    (hent : ∀ j, (f j).entitlementId = j.entitlementId)
    (hrestored : ∀ j, (f j).usageRestoredAt = j.usageRestoredAt) :
    Within UsageQuiet (update Db.automationJobsT p fun _ => f) :=
  updateJobs_quiet fun s j h => ⟨hid j, hent j, hrestored j, fun _ hc => absurd hc (hp s j h)⟩

theorem DispatchBatch.quiet {e : DispatchEnv} (h : DispatchBatch e x sts) : ∀ st ∈ sts, Within UsageQuiet st := by
  intro st hst
  cases h with
  | expire jobId =>
    rw [mem_singleton.mp hst]
    exact updateJobs_uncancelled (fun _ _ h hc => by simp [hc] at h) (fun _ => rfl) (fun _ => rfl) fun _ => rfl
  | claim jobId =>
    rw [mem_singleton.mp hst]
    exact updateJobs_uncancelled (fun _ _ h hc => by simp [hc] at h) (fun _ => rfl) (fun _ => rfl) fun _ => rfl
  | failure jobId attemptCount =>
    rw [mem_singleton.mp hst]
    exact updateJobs_uncancelled (fun _ _ h hc => by simp [hc] at h) (fun _ => rfl) (fun _ => rfl) fun _ => rfl
  | record job run =>
    refine each_two ?_ ?_ _ hst
    · exact updateJobs_uncancelled (fun _ _ h hc => by simp [hc] at h) (fun _ => rfl) (fun _ => rfl) fun _ => rfl
    · exact keeps_usage (buildAudit_quiet _ _ _)

theorem repeatedReport_quiet (input : AutomationCallback) (now : Time) :
    Within UsageQuiet (repeatedReportStatement input now) := by
  refine updateJobs_uncancelled (fun _ j h hc => ?_) (fun _ => rfl) (fun _ => rfl) fun _ => rfl
  rw [hc, Bool.and_eq_true, beq_iff_eq, beq_iff_eq] at h
  cases hs : input.status <;> rw [hs] at h <;> cases h.2

theorem callback_quiet (input : AutomationCallback) (now : Time) :
    ∀ st ∈ callbackStatements input now, Within UsageQuiet st := by
  intro st hst
  refine each_three ?_ ?_ ?_ _ hst
  · exact updateJobs_uncancelled (fun _ _ h hc => by simp [hc] at h) (fun _ => rfl) (fun _ => rfl) fun _ => rfl
  · exact keeps_usage (insert_off rfl)
  · exact keeps_usage (insert_off rfl)

theorem maintenance_quiet (now : Time) : ∀ st ∈ maintenanceStatements now, Within UsageQuiet st := by
  intro st hst
  refine each_two ?_ ?_ _ hst
  · exact updateEntitlements_quiet fun _ => ⟨rfl, rfl, rfl⟩
  · exact updateJobs_uncancelled (fun _ _ h hc => by simp [hc, JobStatus.live] at h) (fun _ => rfl)
      (fun _ => rfl) fun _ => rfl

theorem buildCall_usage (c : BuildCall) (s : Db) : Prog.Each usageSpec Answered c.code s := by
  cases c with
  | create input e =>
    refine createBuildJob_each fun context method t ns u k hi hfree hb hdone => ?_
    obtain ⟨hb', hk', hview⟩ := createBuild_step hi hfree hb
    exact ⟨usageSpec_admits hb' hk', hview.imp_right fun h0 => ⟨(), hdone h0⟩⟩
  | cancel jobId orderId now =>
    refine cancelBuildJob_each fun job t ns u k hread hi _ hb hdone => ?_
    obtain ⟨hb', hk', hview⟩ := cancelBuild_step hi hread.still hb
    exact ⟨usageSpec_admits hb' hk', hview.imp_right fun h0 => ⟨(), hdone h0⟩⟩
  | retry jobId orderId e =>
    refine retryBuildJob_each fun job t ns u k hread hretry hi hcur hb hdone => ?_
    obtain ⟨hb', hk', hview⟩ := retryBuild_step hi rfl hretry hread.still hcur hb
    refine ⟨usageSpec_admits hb' hk', hview.imp_right ?_⟩
    rintro ⟨hrestored, h0, h1⟩
    exact ⟨(), hdone hrestored h0 h1⟩
  | dispatch jobId e =>
    refine dispatchBuild_each (fun x sts h => quiet_commit h.quiet) fun id t k hi _ => ?_
    have hquiet : UsageQuiet t (startRun id e.response.run t) := .of_core rfl
    exact ⟨usageSpec_admits (hquiet.books hi) hquiet.jobsKept, Or.inl hquiet.usageView⟩
  | callback sender input e =>
    refine processAutomationCallback_each fun job _ asked sts hsts => quiet_commit ?_
    simp only [mem_cons, Prod.mk.injEq, not_mem_nil, or_false] at hsts
    rcases hsts with ⟨-, rfl⟩ | ⟨-, rfl⟩
    · intro st hst
      rw [mem_singleton.mp hst]
      exact repeatedReport_quiet input e.now
    · exact callback_quiet input e.now
  | maintenance now => exact runMaintenance_each (quiet_commit (maintenance_quiet now))

/-- In every run whose retries find what they have read, the usage count of each entitlement is
backed by its jobs and its events and within its limit, and only a call that answers has changed any
of them. -/
theorem build_usage_accounted {s : Db} (h0 : UsageBooks s) {w : World Db BuildSite DomainError Unit}
    (hrun : Runs BuildCall.code usageCurrent ⟨s, []⟩ w) :
    (∀ ce ∈ w.db.entitlements.rows, UsageAccounted w.db ce) ∧
      ∀ w', Step BuildCall.code usageCurrent w w' → usageView w'.db ≠ usageView w.db →
        ∃ i, i < w.calls.length ∧ w'.calls = w.calls.set i (.done ()) := by
  have hcode : ∀ c s, usageSpec.inv s → Prog.Each usageSpec Answered (BuildCall.code c) s :=
    fun c s _ => buildCall_usage c s
  refine ⟨(Runs.each hcode h0 hrun).1.accounted, fun w' hstep hne => ?_⟩
  rcases Runs.next hcode h0 hrun hstep with heq | ⟨i, x, k, hi, hcalls, -, hview | ⟨a, rfl⟩⟩
  · exact absurd (congrArg usageView heq) hne
  · exact absurd hview hne
  · exact ⟨i, hi, hcalls⟩

/-! ## Two runs -/

def cancelledBuildDb : Db where
  sellableItems := .ok [{ id := 7 }]
  items := .ok [{ id := 5, orderId := 3, sellableItemId := 7, deliveryComponentId := 7
                  deliveryComponentType := .automation, quantity := 1 }]
  entitlements := .ok [{ id := 2, userId := some 1, orderItemId := 5, sellableItemId := 7
                         status := .active, usageLimit := some 2 }]
  automationJobs := .ok [{ id := 9, entitlementId := 2, orderItemId := 5, sellableItemId := 7
                           provider := .gitlabCi, artifactRequired := false, idempotencyKey := 1
                           status := .cancelled, timeoutAt := 90, usageRestoredAt := some 4
                           updatedAt := 4 }]
  usageEvents := .ok [{ entitlementId := 2, eventType := .consumed, idempotencyKey := .automation 9 },
    { entitlementId := 2, eventType := .restored, idempotencyKey := .automationRestore 9 4 }]

theorem cancelledBuildDb_books : UsageBooks cancelledBuildDb where
  accounted := by
    intro ce hce
    obtain rfl := mem_singleton.mp hce
    exact ⟨by decide, by decide, by decide⟩
  cancelled := by decide
  restored := by
    intro j hj t ht
    obtain rfl := mem_singleton.mp hj
    cases ht
    decide
  owned := by decide

def retryAt (now : Time) : BuildCall := .retry 9 none ⟨true, now, now⟩

/-- The job is retried, cancelled and retried again, and a second build uses the entitlement up. -/
def retriedTwiceRun : World Db BuildSite DomainError Unit :=
  World.exec BuildCall.code usageCurrent ⟨cancelledBuildDb, []⟩ (oneByOne [retryAt 10, .cancel 9 none 11, retryAt 12,
      .create ⟨2, 6⟩ ⟨.ok 3, some ⟨.gitlabCi, false⟩, .ok (), 8, 13, 14⟩] 4)

def retriesCrossedRun : World Db BuildSite DomainError Unit :=
  World.exec BuildCall.code anySite ⟨cancelledBuildDb, []⟩
    [.start (retryAt 10), .start (retryAt 11), .run 0, .run 1, .run 0, .run 1]

theorem build_usage_accounted_retriedTwiceRun : retriedTwiceRun.db.entitlements.rows.map (·.usageCount) = [2] ∧
      ∀ ce ∈ retriedTwiceRun.db.entitlements.rows, UsageAccounted retriedTwiceRun.db ce := by
  have hrun : Runs BuildCall.code usageCurrent ⟨cancelledBuildDb, []⟩ retriedTwiceRun :=
    World.exec_runs BuildCall.code usageCurrent _ _
  exact ⟨by decide, (build_usage_accounted cancelledBuildDb_books hrun).1⟩

/-- The second retry charges the entitlement for the job that the first one has queued. -/
theorem not_build_usage_accounted : ¬∀ s, UsageBooks s → ∀ w : World Db BuildSite DomainError Unit,
      Runs BuildCall.code anySite ⟨s, []⟩ w → ∀ ce ∈ w.db.entitlements.rows, UsageAccounted w.db ce := by
  intro h
  have hbooks := h cancelledBuildDb cancelledBuildDb_books retriesCrossedRun
    (World.exec_runs BuildCall.code anySite _ _)
  have hcount : ∃ ce ∈ retriesCrossedRun.db.entitlements.rows,
      ce.usageCount = 2 ∧ openUses retriesCrossedRun.db ce.id = 1 := by decide
  obtain ⟨ce, hce, htwo, hone⟩ := hcount
  have := (hbooks ce hce).jobs
  omega

end Gmshop
