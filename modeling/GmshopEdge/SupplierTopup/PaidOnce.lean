import GmshopEdge.SupplierTopup.Jobs
import GmshopEdge.Lib.Guarantee

/-!
# A top-up is paid for once

No statement makes a job open, busy or queued again, so that the rules about pairs of jobs rest on the two
inserts, and the rule about reports on the one UPDATE that closes a job (`JobStep`, `TopUpsSound`).

Each insert comes a step after the read that allows it, and a report goes on to the `create` job whether or
not it closed its own: `checksHold` is the condition that what was read still holds.
-/

namespace Gmshop

open List Sql Stmt Prog Table Bool Bare

/-! ## The property -/

/-- One open top-up of a supplier in a day, each job claimed once, one `collect` job under way or done for a
top-up, and one report of a job that changes statuses. -/
structure PaidOnce (s : TopUps) : Prop where
  create : ∀ a ∈ s.jobs.rows, ∀ b ∈ s.jobs.rows, a.id ≠ b.id → a.supplierId = b.supplierId →
    a.isOpen = true → b.isOpen = true →
      a.createdAt + openTopUpMs ≤ b.createdAt ∨ b.createdAt + openTopUpMs ≤ a.createdAt
  claims : ∀ j ∈ s.jobs.rows, j.claims ≤ 1
  collect : ∀ a ∈ s.jobs.rows, ∀ b ∈ s.jobs.rows, a.isBusy = true → b.isBusy = true →
    a.topupId = b.topupId → a.id = b.id
  reports : ∀ p ∈ s.reported, ∀ q ∈ s.reported, p.1 = q.1 → p.2 = q.2

/-- What a call has read still holds when it writes: no open top-up of the supplier, no `collect` job of the
top-up, and the job of a report that goes on to the top-up is running. -/
def checksHold (x : TopUpSite) (s : TopUps) : Prop :=
  match x with
  | .approveOffer supplierId now => openTopUp s supplierId now = none
  | .approvePaid topupId => busyCollect s topupId = false
  | .finish jobId status => ∀ j ∈ s.jobs.get? jobId, j.step = .collect →
      status = .done ∨ status = .uncertain → j.status = .running
  | _ => True

instance (x : TopUpSite) (s : TopUps) : Decidable (checksHold x s) := by
  cases x <;> unfold checksHold <;> infer_instance

/-! ## The invariant -/

def TopUpStatus.closed (st : TopUpStatus) : Bool := st != .queued && st != .running

structure TopUpsSound (s : TopUps) : Prop extends PaidOnce s where
  unclaimed : ∀ j ∈ s.jobs.rows, j.status = .queued → j.claims = 0
  closed : ∀ p ∈ s.reported, ∃ j, s.jobs.get? p.1 = some j ∧ j.status.closed = true

/-- What a statement may make of a job: none is opened, made busy or queued, or taken back from a report. -/
structure JobStep (j j' : TopUpJob) : Prop where
  id : j'.id = j.id
  topupId : j'.topupId = j.topupId
  step : j'.step = j.step
  supplierId : j'.supplierId = j.supplierId
  createdAt : j'.createdAt = j.createdAt
  isOpen : j'.isOpen = true → j.isOpen = true
  isBusy : j'.isBusy = true → j.isBusy = true
  claims : j'.claims ≤ 1
  unclaimed : j'.status = .queued → j'.claims = 0
  closed : j.status.closed = true → j'.status.closed = true

structure TopUpsGrow (s t : TopUps) : Prop where
  reported : s.reported ⊆ t.reported
  jobs : ∀ id j, s.jobs.get? id = some j → ∃ j', t.jobs.get? id = some j' ∧ j'.step = j.step

theorem TopUpsGrow.refl (s : TopUps) : TopUpsGrow s s := ⟨List.Subset.refl _, fun _ j hj => ⟨j, hj, rfl⟩⟩

theorem TopUpsGrow.trans (s t u : TopUps) (h : TopUpsGrow s t) (h' : TopUpsGrow t u) : TopUpsGrow s u where
  reported _ hp := h'.reported (h.reported hp)
  jobs id j hj := by
    obtain ⟨j', hj', hstep⟩ := h.jobs id j hj
    obtain ⟨j'', hj'', hstep'⟩ := h'.jobs id j' hj'
    exact ⟨j'', hj'', hstep'.trans hstep⟩

def topUpSpec : Spec TopUps TopUpSite Empty :=
  .ofRel TopUpsSound checksHold (fun _ _ => True) TopUpsGrow (fun _ => trivial) TopUpsGrow.refl TopUpsGrow.trans

variable {s t : TopUps} {p : TopUps → TopUpJob → Bool} {c n report : Nat} {f : TopUps → TopUpJob → TopUpJob}
  {j job : TopUpJob} {x : TopUpSite} {now : Time} {jobId : Id} {status : TopUpStatus}
  {order : Option TopUpOrder} {ns : List Nat}

theorem admits_topUp (ht : TopUpsSound t) (h : TopUpsGrow s t) : topUpSpec.Admits ∅ ∅ s t :=
  Spec.admits_ofRel ht trivial fun _ => h

/-! ## Updates -/

theorem updateJobs_sound (hs : TopUpsSound s) (hf : ∀ j ∈ s.jobs.rows, p s j = true → JobStep j (f s j))
    (h : update TopUps.jobsT p f c s = .ok (n, t)) :
    TopUpsSound t ∧ TopUpsGrow s t ∧ t.reported = s.reported ∧ n = s.jobs.count (p s) ∧
      ∀ id, t.jobs.get? id = (s.jobs.get? id).map fun j => if p s j then f s j else j := by
  obtain ⟨hn, jobs, hrows, rfl⟩ := update_ok h
  have hsame : ∀ j ∈ s.jobs.rows, JobStep j j := fun j hj =>
    ⟨rfl, rfl, rfl, rfl, rfl, id, id, hs.claims j hj, hs.unclaimed j hj, id⟩
  have hstep : ∀ j ∈ s.jobs.rows, JobStep j (if p s j then f s j else j) := by
    intro j hj
    split
    · next hp => exact hf j hj hp
    · exact hsame j hj
  have hback : ∀ j' ∈ jobs.rows, ∃ j ∈ s.jobs.rows, JobStep j j' := by
    intro j' hj'
    rw [hrows, mem_map] at hj'
    obtain ⟨j, hj, rfl⟩ := hj'
    exact ⟨j, hj, hstep j hj⟩
  have hget : ∀ id, jobs.get? id = (s.jobs.get? id).map fun j => if p s j then f s j else j := by
    intro id
    cases hj : s.jobs.get? id with
    | none =>
      rw [Option.map_none, Option.eq_none_iff_forall_not_mem]
      intro x hx
      obtain ⟨hmem, hkey⟩ := get?_eq_some_iff.mp hx
      obtain ⟨j, hmem', hj'⟩ := hback x hmem
      have hfound : s.jobs.get? j.id = some j := mem_get? hmem'
      rw [← hj'.id, show x.id = id from hkey, hj] at hfound
      cases hfound
    | some j =>
      rw [Option.map_some, get?_eq_some_iff, hrows]
      refine ⟨mem_map_of_mem (get?_mem hj), ?_⟩
      exact (hstep j (get?_mem hj)).id.trans (get?_key hj)
  refine ⟨⟨⟨?_, ?_, ?_, hs.reports⟩, ?_, ?_⟩, ⟨List.Subset.refl _, ?_⟩, rfl, hn, hget⟩
  · intro a' ha' b' hb' hne hsupplier hopen hopen'
    obtain ⟨a, ha, hstepa⟩ := hback a' ha'
    obtain ⟨b, hb, hstepb⟩ := hback b' hb'
    rw [hstepa.createdAt, hstepb.createdAt]
    rw [hstepa.id, hstepb.id] at hne
    rw [hstepa.supplierId, hstepb.supplierId] at hsupplier
    exact hs.create a ha b hb hne hsupplier (hstepa.isOpen hopen) (hstepb.isOpen hopen')
  · intro j' hj'
    obtain ⟨j, -, hj⟩ := hback j' hj'
    exact hj.claims
  · intro a' ha' b' hb' hbusy hbusy' htopup
    obtain ⟨a, ha, hstepa⟩ := hback a' ha'
    obtain ⟨b, hb, hstepb⟩ := hback b' hb'
    rw [hstepa.id, hstepb.id]
    rw [hstepa.topupId, hstepb.topupId] at htopup
    exact hs.collect a ha b hb (hstepa.isBusy hbusy) (hstepb.isBusy hbusy') htopup
  · intro j' hj' hqueued
    obtain ⟨j, -, hj⟩ := hback j' hj'
    exact hj.unclaimed hqueued
  · intro q hq
    obtain ⟨j, hj, hclosed⟩ := hs.closed q hq
    refine ⟨_, (hget _).trans (by rw [hj]; rfl), ?_⟩
    exact (hstep j (get?_mem hj)).closed hclosed
  · intro id j hj
    exact ⟨_, (hget id).trans (by rw [hj]; rfl), (hstep j (get?_mem hj)).step⟩

theorem JobStep.settle {j' : TopUpJob} (hs : TopUpsSound s) (hj : j ∈ s.jobs.rows) (hid : j'.id = j.id)
    (htopup : j'.topupId = j.topupId) (hstep : j'.step = j.step) (hsupplier : j'.supplierId = j.supplierId)
    (hcreated : j'.createdAt = j.createdAt) (hclaims : j'.claims = j.claims)
    (hclosed : j'.status.closed = true) (hopen : j'.isOpen = true → j.isOpen = true)
    (hbusy : j'.isBusy = true → j.isBusy = true) : JobStep j j' := by
  refine ⟨hid, htopup, hstep, hsupplier, hcreated, hopen, hbusy, ?_, ?_, fun _ => hclosed⟩
  · rw [hclaims]
    exact hs.claims j hj
  · intro hqueued
    rw [hqueued] at hclosed
    cases hclosed

theorem updateJobs_admits (hf : ∀ t, TopUpsSound t → ∀ j ∈ t.jobs.rows, p t j = true → JobStep j (f t j)) :
    Bare topUpSpec (commit x [update TopUps.jobsT p f] : TopUpProg (List Nat)) s := by
  refine commit fun t _ ht _ ns u hb => ?_
  obtain ⟨n, hu, -⟩ := batch_single_ok hb
  obtain ⟨hu', hgrow, -⟩ := updateJobs_sound ht (hf t ht) hu
  exact admits_topUp hu' hgrow

/-! ## Inserts -/

theorem insertJob_sound {r : TopUpJob} (hs : TopUpsSound s) (hqueued : r.status = .queued) (hclaims : r.claims = 0)
    (hopen : ∀ j ∈ s.jobs.rows, j.supplierId = r.supplierId → j.isOpen = true → r.isOpen = true →
      j.createdAt + openTopUpMs ≤ r.createdAt)
    (hbusy : ∀ j ∈ s.jobs.rows, j.topupId = r.topupId → j.isBusy = true → r.isBusy = false)
    (h : insert TopUps.jobsT .abort (fun _ => [r]) c s = .ok (n, t)) : topUpSpec.Admits ∅ ∅ s t := by
  obtain ⟨-, jobs, hrows, rfl⟩ := insert_abort_ok h
  have hrows : jobs.rows = s.jobs.rows ++ [r] := hrows
  have hmem : ∀ j ∈ jobs.rows, j ∈ s.jobs.rows ∨ j = r := by
    intro j hj
    rw [hrows, mem_append, mem_singleton] at hj
    exact hj
  refine admits_topUp ⟨⟨?_, ?_, ?_, hs.reports⟩, ?_, ?_⟩ ⟨List.Subset.refl _, ?_⟩
  · intro a ha b hb hne hsupplier hopena hopenb
    rcases hmem a ha with ha | rfl <;> rcases hmem b hb with hb | rfl
    · exact hs.create a ha b hb hne hsupplier hopena hopenb
    · exact Or.inl (hopen a ha hsupplier hopena hopenb)
    · exact Or.inr (hopen b hb hsupplier.symm hopenb hopena)
    · exact absurd rfl hne
  · intro j hj
    rcases hmem j hj with hj | rfl
    · exact hs.claims j hj
    · rw [hclaims]
      exact Nat.zero_le 1
  · intro a ha b hb hbusya hbusyb htopup
    rcases hmem a ha with ha | rfl <;> rcases hmem b hb with hb | rfl
    · exact hs.collect a ha b hb hbusya hbusyb htopup
    · rw [hbusy a ha htopup hbusya] at hbusyb
      cases hbusyb
    · rw [hbusy b hb htopup.symm hbusyb] at hbusya
      cases hbusya
    · rfl
  · intro j hj hstatus
    rcases hmem j hj with hj | rfl
    · exact hs.unclaimed j hj hstatus
    · exact hclaims
  · intro q hq
    obtain ⟨j, hj, hclosed⟩ := hs.closed q hq
    exact ⟨j, get?_append hrows hj, hclosed⟩
  · exact fun id j hj => ⟨j, get?_append hrows hj, rfl⟩

theorem openTopUp_none {supplierId : String} (h : openTopUp s supplierId now = none) (hj : j ∈ s.jobs.rows)
    (hsupplier : j.supplierId = supplierId) (hopen : j.isOpen = true) : j.createdAt + openTopUpMs ≤ now := by
  by_contra hlt
  have hmem : j ∈ s.jobs.rows.filter fun j => j.supplierId == supplierId && j.isOpen &&
      decide (now < j.createdAt + openTopUpMs) := by
    rw [List.mem_filter]
    refine ⟨hj, ?_⟩
    simp [hsupplier, hopen, Nat.lt_of_not_le hlt]
  have hsome := List.isSome_maxOn?_of_mem (f := fun j : TopUpJob => j.createdAt) hmem
  unfold openTopUp at h
  rw [h] at hsome
  cases hsome

/-! ## Reports -/

theorem noteReport_sound {changes : Nat → TopUps → Bool} (hs : TopUpsSound s)
    (hnew : changes c s = true → (∀ q ∈ s.reported, q.1 = jobId → q.2 = report) ∧
      ∃ j, s.jobs.get? jobId = some j ∧ j.status.closed = true)
    (h : noteReport jobId report changes c s = .ok (n, t)) :
    TopUpsSound t ∧ TopUpsGrow s t ∧ t.jobs = s.jobs ∧ (changes c s = true → (jobId, report) ∈ t.reported) := by
  simp only [noteReport, Except.ok.injEq, Prod.mk.injEq] at h
  obtain ⟨-, rfl⟩ := h
  by_cases hchanges : changes c s = true
  · rw [if_pos hchanges]
    obtain ⟨hsame, hclosed⟩ := hnew hchanges
    refine ⟨⟨⟨hs.create, hs.claims, hs.collect, ?_⟩, hs.unclaimed, ?_⟩, ⟨subset_cons_self _ _, ?_⟩, rfl,
      fun _ => mem_cons_self⟩
    · intro p hp q hq hpq
      rcases mem_cons.mp hp with rfl | hp <;> rcases mem_cons.mp hq with rfl | hq
      · rfl
      · exact (hsame q hq hpq.symm).symm
      · exact hsame p hp hpq
      · exact hs.reports p hp q hq hpq
    · intro p hp
      rcases mem_cons.mp hp with rfl | hp
      · exact hclosed
      · exact hs.closed p hp
    · exact fun id j hj => ⟨j, hj, rfl⟩
  · rw [if_neg hchanges]
    exact ⟨hs, .refl s, rfl, fun h => absurd h hchanges⟩

theorem isOpen_create (h : j.isOpen = true) : j.step = .create := by
  unfold TopUpJob.isOpen at h
  rw [and_eq_true, beq_iff_eq] at h
  exact h.1

theorem isBusy_collect (h : j.isBusy = true) : j.step = .collect := by
  unfold TopUpJob.isBusy at h
  rw [and_eq_true, beq_iff_eq] at h
  exact h.1

theorem JobStep.close (hs : TopUpsSound s) (hj : j ∈ s.jobs.rows) (hrun : j.status = .running)
    (hstatus : status.closed = true) : JobStep j { j with status := status, order := order } := by
  refine .settle hs hj rfl rfl rfl rfl rfl rfl hstatus (fun hopen => ?_) fun hbusy => ?_
  · have hstep := isOpen_create hopen
    change j.step = .create at hstep
    simp [TopUpJob.isOpen, hstep, hrun]
  · have hstep := isBusy_collect hbusy
    change j.step = .collect at hstep
    simp [TopUpJob.isBusy, hstep, hrun]

theorem finish_sound (hs : TopUpsSound s) (hstatus : status.closed = true)
    (h : batch [update TopUps.jobsT (fun _ j => j.id == jobId && j.status == .running)
        (fun _ j => { j with status := status, order := order <|> j.order }),
      noteReport jobId report fun c _ => c != 0] 0 s = .ok (ns, t)) :
    TopUpsSound t ∧ TopUpsGrow s t ∧
      ((∃ j, s.jobs.get? jobId = some j ∧ j.status = .running) → (jobId, report) ∈ t.reported) := by
  obtain ⟨n, u, ns', hu, hnote, -⟩ := batch_cons_ok h
  obtain ⟨m, hnote, -⟩ := batch_single_ok hnote
  have hrunning : ∀ j : TopUpJob, (j.id == jobId && j.status == .running) = true →
      j.id = jobId ∧ j.status = .running := fun j hp => by
    rwa [and_eq_true, beq_iff_eq, beq_iff_eq] at hp
  obtain ⟨hu', hgrow, hsame, hn, hget⟩ :=
    updateJobs_sound hs (fun j hj hp => .close hs hj (hrunning j hp).2 hstatus) hu
  -- a job that was running has not been reported
  have hnew : (n != 0) = true → (∀ q ∈ u.reported, q.1 = jobId → q.2 = report) ∧
      ∃ j, u.jobs.get? jobId = some j ∧ j.status.closed = true := by
    intro hne
    rw [hn, bne_iff_ne] at hne
    obtain ⟨j, hj, hp⟩ := countP_pos_iff.mp (Nat.pos_of_ne_zero hne)
    obtain ⟨hid, hrun⟩ := hrunning j hp
    have hfound : s.jobs.get? jobId = some j := by
      rw [← hid]
      exact mem_get? hj
    refine ⟨fun q hq hjob => ?_, ⟨_, by rw [hget, hfound, Option.map_some, if_pos hp], hstatus⟩⟩
    rw [hsame] at hq
    obtain ⟨x, hx, hclosed⟩ := hs.closed q hq
    rw [hjob, hfound] at hx
    rw [← Option.some.inj hx, hrun] at hclosed
    cases hclosed
  obtain ⟨ht, hgrow', -, hnoted⟩ := noteReport_sound hu' hnew hnote
  refine ⟨ht, hgrow.trans _ _ _ hgrow', ?_⟩
  rintro ⟨j, hj, hrun⟩
  refine hnoted ?_
  rw [hn, bne_iff_ne]
  refine Nat.ne_of_gt (countP_pos_iff.mpr ⟨j, get?_mem hj, ?_⟩)
  rw [and_eq_true, beq_iff_eq, beq_iff_eq]
  exact ⟨get?_key hj, hrun⟩

theorem setTopUp_sound {topupId : Id} (hs : TopUpsSound s) (hstatus : status = .paid ∨ status = .uncertain)
    (hreport : (jobId, report) ∈ s.reported) (h : batch [noteReport jobId report (fun _ s =>
        s.jobs.exist fun j => j.id == topupId && j.step == .create && j.status != status),
      update TopUps.jobsT (fun _ j => j.id == topupId && j.step == .create)
        fun _ j => { j with status := status }] 0 s = .ok (ns, t)) : TopUpsSound t ∧ TopUpsGrow s t := by
  obtain ⟨n, u, ns', hnote, hu, -⟩ := batch_cons_ok h
  obtain ⟨m, hu, -⟩ := batch_single_ok hu
  obtain ⟨hu', hgrow, -⟩ := noteReport_sound hs
    (fun _ => ⟨fun q hq hjob => hs.reports q hq _ hreport hjob, hs.closed _ hreport⟩) hnote
  obtain ⟨ht, hgrow', -⟩ := updateJobs_sound hu' (fun j hj hp => by
    rw [and_eq_true, beq_iff_eq, beq_iff_eq] at hp
    have hclosed : status.closed = true := by
      rcases hstatus with rfl | rfl <;> rfl
    refine JobStep.settle hu' hj rfl rfl rfl rfl rfl rfl hclosed (fun ho => ?_) fun hb => ?_
    · rcases hstatus with rfl | rfl <;> simp [TopUpJob.isOpen] at ho
    · simp [TopUpJob.isBusy, hp.2] at hb) hu
  exact ⟨ht, hgrow.trans _ _ _ hgrow'⟩

/-! ## The calls -/

abbrev KeepsRules {α : Type} (p : TopUpProg α) (s : TopUps) : Prop := Answers topUpSpec (fun _ _ => True) p s

theorem keepsRules_commit {sts : List (Stmt TopUps)}
    (h : ∀ t, TopUpsGrow s t → TopUpsSound t → checksHold x t → ∀ ns u, batch sts 0 t = .ok (ns, u) →
      topUpSpec.Admits ∅ ∅ t u) : KeepsRules (commit x sts) s :=
  answers (commit fun t hr ht hc ns u hb => h t hr ht hc ns u hb)

theorem keepsRules_void {α : Type} {p : TopUpProg α} (h : KeepsRules p s) : KeepsRules p.void s :=
  Answers.bind h fun _ _ _ _ => Answers.done trivial

theorem approveOffer_keepsRules (id offerId : Id) (supplierId : String) (choice : Nat) (now : Time)
    (s : TopUps) : KeepsRules (approveSupplierTopUpOffer id offerId supplierId choice now) s := by
  unfold approveSupplierTopUpOffer
  split
  · exact Answers.throw _
  refine Answers.query fun t _ _ => ?_
  split
  · exact Answers.throw _
  refine keepsRules_void (keepsRules_commit fun u _ hu hnone ns v hb => ?_)
  obtain ⟨n, hi, -⟩ := batch_single_ok hb
  refine insertJob_sound hu rfl rfl (fun j hj hsupplier hopen _ => ?_) (fun _ _ _ _ => rfl) hi
  exact openTopUp_none hnone hj hsupplier hopen

theorem approvePaid_keepsRules (id promptId topupId : Id) (now : Time) (s : TopUps) :
    KeepsRules (approveSupplierTopUpPaid id promptId topupId now) s := by
  refine Answers.query fun t _ _ => ?_
  split
  · exact Answers.throw _
  refine Answers.query fun u _ _ => ?_
  split
  · exact Answers.throw _
  refine keepsRules_void (keepsRules_commit fun v _ hv hfree ns w hb => ?_)
  obtain ⟨n, hi, -⟩ := batch_single_ok hb
  refine insertJob_sound hv rfl rfl (fun j _ _ _ hopen => ?_) (fun j hj htopup hbusy => ?_) hi
  · cases isOpen_create hopen
  · have hnone := any_eq_false.mp hfree j hj
    have heq := beq_iff_eq.mpr htopup
    simp [heq, hbusy] at hnone

theorem rejectPaid_keepsRules (topupId : Id) (s : TopUps) : KeepsRules (rejectSupplierTopUpPaid topupId) s := by
  refine keepsRules_void (answers (updateJobs_admits fun t ht j hj _ => ?_))
  refine .settle ht hj rfl rfl rfl rfl rfl rfl rfl (fun hopen => ?_) fun hbusy => ?_
  · simp [TopUpJob.isOpen] at hopen
  · simp [TopUpJob.isBusy] at hbusy

theorem verify_keepsRules (id : Id) (key : String) (now : Time) (s : TopUps) :
    KeepsRules (insertVerifyJob id key now) s := by
  refine keepsRules_void (keepsRules_commit fun t _ ht _ ns u hb => ?_)
  obtain ⟨n, hi, -⟩ := batch_single_ok hb
  refine insertJob_sound ht rfl rfl (fun j _ _ _ hopen => ?_) (fun _ _ _ _ => rfl) hi
  cases isOpen_create hopen

theorem claimed_sound (hs : TopUpsSound s) (hj : j ∈ s.jobs.rows) (hqueued : j.status = .queued) :
    JobStep j (j.claimed now) where
  id := rfl
  topupId := rfl
  step := rfl
  supplierId := rfl
  createdAt := rfl
  isOpen h := by
    have hstep : j.step = .create := isOpen_create (j := j.claimed now) h
    simp [TopUpJob.isOpen, hstep, hqueued]
  isBusy h := by
    have hstep : j.step = .collect := isBusy_collect (j := j.claimed now) h
    simp [TopUpJob.isBusy, hstep, hqueued]
  claims := by
    show j.claims + 1 ≤ 1
    rw [hs.unclaimed j hj hqueued]
  unclaimed h := nomatch h
  closed h := by
    rw [hqueued] at h
    cases h

theorem claim_keepsRules (now : Time) (s : TopUps) : KeepsRules (claimSupplierTopUpJob now) s := by
  intro t hr ht _ _
  dsimp only
  cases hu : update TopUps.jobsT (fun s j => (oldestQueued s).any (·.id == j.id) && j.status == .queued)
      (fun _ => TopUpJob.claimed now) 0 t with
  | error a => exact ⟨∅, topUpSpec.admits_refl ht, rfl, hr, fun _ _ => trivial⟩
  | ok r =>
    obtain ⟨hu', hgrow, -⟩ := updateJobs_sound ht (fun j hj hp => by
      rw [and_eq_true, beq_iff_eq] at hp
      exact claimed_sound ht hj hp.2) hu
    refine ⟨∅, admits_topUp hu' hgrow, Answers.later (hr.trans _ _ _ hgrow) ?_⟩
    generalize (oldestQueued t).map (·.id) = claimed
    cases claimed with
    | none => exact Answers.done trivial
    | some id => exact answers (Reads.bare (reads_query _) _)

theorem finishJob_keepsRules (hstatus : status.closed = true) (s : TopUps) :
    KeepsRules (finishJob jobId report status order) s :=
  keepsRules_commit fun _ _ ht _ _ _ hb => by
    obtain ⟨hu, hgrow, -⟩ := finish_sound ht hstatus hb
    exact admits_topUp hu hgrow

theorem finishTopUp_keepsRules {status' : TopUpStatus} (hjob : ∃ j, s.jobs.get? job.id = some j ∧ j.step = .collect)
    (hstatus : status = .done ∨ status = .uncertain) (hstatus' : status' = .paid ∨ status' = .uncertain) :
    KeepsRules (do
      let _ ← finishJob job.id report status none
      (setTopUp job.id job.topupId report status').void) s := by
  have hclosed : status.closed = true := by
    rcases hstatus with rfl | rfl <;> rfl
  refine Answers.commit fun t hr ht hc ns u hb => ?_
  obtain ⟨hu, hgrow, hreport⟩ := finish_sound ht hclosed hb
  obtain ⟨j, hj, hstep⟩ := hjob
  obtain ⟨j', hj', hstep'⟩ := hr.jobs _ j hj
  have hreport := hreport ⟨j', hj', hc j' hj' (hstep'.trans hstep) hstatus⟩
  refine ⟨admits_topUp hu hgrow, keepsRules_void (keepsRules_commit fun v hr hv _ ns w hb => ?_)⟩
  obtain ⟨hw, hgrow⟩ := setTopUp_sound hv hstatus' (hr.reported hreport) hb
  exact admits_topUp hw hgrow

theorem recordOutcome_keepsRules (report : Nat) (outcome : TopUpOutcome)
    (hjob : s.jobs.get? job.id = some job) : KeepsRules (recordOutcome job report outcome) s := by
  unfold recordOutcome
  split
  · exact keepsRules_void (finishJob_keepsRules rfl s)
  · exact keepsRules_void (finishJob_keepsRules rfl s)
  · exact keepsRules_void (finishJob_keepsRules rfl s)
  · next hstep => exact finishTopUp_keepsRules ⟨job, hjob, hstep⟩ (Or.inl rfl) (Or.inl rfl)
  · exact keepsRules_void (finishJob_keepsRules rfl s)
  · exact keepsRules_void (finishJob_keepsRules rfl s)
  · next hstep => exact finishTopUp_keepsRules ⟨job, hjob, hstep⟩ (Or.inr rfl) (Or.inr rfl)
  · next allPaid _ => exact keepsRules_void (finishJob_keepsRules (by cases allPaid <;> rfl) s)
  · exact keepsRules_void (finishJob_keepsRules rfl s)
  · exact keepsRules_void (finishJob_keepsRules rfl s)
  · exact keepsRules_void (finishJob_keepsRules rfl s)
  · exact Answers.throw _
  · exact Answers.throw _

theorem report_keepsRules (report : Nat) (jobId : Id) (outcome : TopUpOutcome) (s : TopUps) :
    KeepsRules (recordSupplierTopUpResult report jobId outcome) s := by
  refine Answers.query fun t _ _ => ?_
  cases hjob : t.jobs.get? jobId with
  | none => exact Answers.throw _
  | some job =>
    dsimp only
    split
    · exact Answers.done trivial
    · have hid : job.id = jobId := get?_key hjob
      refine Answers.bind (recordOutcome_keepsRules report outcome ?_) fun _ _ _ _ => Answers.done trivial
      rw [hid]
      exact hjob

theorem topUpCall_keepsRules (call : TopUpCall) (s : TopUps) : KeepsRules call.code s := by
  cases call with
  | offer supplierId now =>
    refine keepsRules_void ?_
    unfold offerSupplierTopUp
    split
    · exact Answers.throw _
    · exact Answers.query fun _ _ _ => Answers.done trivial
  | approveOffer => exact approveOffer_keepsRules _ _ _ _ _ s
  | approvePaid => exact approvePaid_keepsRules _ _ _ _ s
  | rejectPaid => exact rejectPaid_keepsRules _ s
  | verify => exact verify_keepsRules _ _ _ s
  | claim => exact keepsRules_void (claim_keepsRules _ s)
  | report => exact keepsRules_void (report_keepsRules _ _ _ s)

/-! ## Runs -/

/-- Where what a call has read still holds when it writes, every run keeps the rules. -/
theorem top_ups_paid_once {s : TopUps} (hs : TopUpsSound s) {w : World TopUps TopUpSite DomainError Unit}
    (h : Runs TopUpCall.code checksHold ⟨s, []⟩ w) : PaidOnce w.db := by
  have hcode : ∀ c s, topUpSpec.inv s → Answers topUpSpec (fun _ _ => True) (TopUpCall.code c) s :=
    fun c s _ => topUpCall_keepsRules c s
  exact (Runs.answers (fun _ _ _ _ _ => trivial) hcode hs h).1.toPaidOnce

def noTopUps : TopUps := ⟨.of [], []⟩

theorem noTopUps_sound : TopUpsSound noTopUps where
  create _ ha := nomatch ha
  claims _ hj := nomatch hj
  collect _ ha := nomatch ha
  reports _ hp := nomatch hp
  unclaimed _ hj := nomatch hj
  closed _ hp := nomatch hp

/-- A top-up that is offered, ordered, paid and collected. -/
theorem top_ups_paid_once_collected : ∃ w : World TopUps TopUpSite DomainError Unit,
    Runs TopUpCall.code checksHold ⟨noTopUps, []⟩ w ∧
      w.db.jobs.rows.map (·.status) = [.paid, .done] ∧ PaidOnce w.db := by
  obtain ⟨w, hw⟩ : ∃ w, w = World.exec TopUpCall.code checksHold ⟨noTopUps, []⟩
      (oneByOne [.approveOffer 1 100 "pomoai" 1 1000, .claim 2000,
        .report 1 1 (.orderCreated ⟨"支付宝", "100", [("r", "100")]⟩), .approvePaid 2 200 1 3000, .claim 4000,
        .report 2 2 .collected] 3) := ⟨_, rfl⟩
  have hruns : Runs TopUpCall.code checksHold ⟨noTopUps, []⟩ w := by
    rw [hw]
    exact World.exec_runs _ _ _ _
  refine ⟨w, hruns, ?_, top_ups_paid_once noTopUps_sound hruns⟩
  rw [hw]
  decide

/-- Two offers of one supplier are approved at the same time, and both queue an order. -/
theorem two_open_top_ups : ∃ w : World TopUps TopUpSite DomainError Unit,
    Runs TopUpCall.code anySite ⟨noTopUps, []⟩ w ∧
      w.db.jobs.rows.map (fun j => (j.supplierId, j.isOpen, j.createdAt)) =
        [("pomoai", true, 2000), ("pomoai", true, 1000)] ∧ ¬ PaidOnce w.db := by
  obtain ⟨w, hw⟩ : ∃ w, w = World.exec TopUpCall.code anySite ⟨noTopUps, []⟩
      [.start (.approveOffer 1 100 "pomoai" 1 1000), .run 0, .start (.approveOffer 2 101 "pomoai" 1 2000),
        .run 1, .run 1, .run 0] := ⟨_, rfl⟩
  refine ⟨w, ?_, ?_, fun hpaid => ?_⟩
  · rw [hw]
    exact World.exec_runs _ _ _ _
  · rw [hw]
    decide
  · have hcreate := hpaid.create
    rw [hw] at hcreate
    revert hcreate
    decide

end Gmshop
