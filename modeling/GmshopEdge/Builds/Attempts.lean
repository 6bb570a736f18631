import GmshopEdge.Builds.Calls

/-!
# Callbacks and attempts

A retry starts a new attempt of a job; a provider run belongs to the attempt that it was started in.
The callback secret is that of the job, so a run of an earlier attempt can still report. What keeps
its reports off the job is `assertProviderJobOwnership`, and only once the job carries the id of a run
of its own attempt: in the runs whose callbacks of earlier attempts meet such a job
(`attemptCurrent`) they change nothing (`old_callbacks_change_nothing`). Before that, the old run's
callback is taken for the new one's (`not_old_callbacks_change_nothing`).
-/

namespace Gmshop

open List Sql Stmt Prog Table Option

def jobReport (s : Db) (jobId : Id) : Option (JobStatus × Option ProviderJobId × Option Nat) :=
  (s.automationJobs.get? jobId).map fun j => (j.status, j.providerJobId, j.runUrl)

/-- A recorded run is one of the job's current attempt, and the runs of a job have distinct numbers. -/
structure RunsRecorded (s : Db) : Prop where
  recorded : ∀ j ∈ s.automationJobs.rows, ∀ r, j.providerJobId = some (.run r) →
    ⟨j.id, r, buildRetries s j.id⟩ ∈ s.remote.builds
  distinct : ∀ b ∈ s.remote.builds, ∀ b' ∈ s.remote.builds, b.jobId = b'.jobId → b.run = b'.run → b = b'

/-! ## Steps that record nothing -/

structure RunQuiet (s t : Db) : Prop where
  builds : t.remote.builds = s.remote.builds
  retries : ∀ i, buildRetries t i = buildRetries s i
  jobs : ∀ j ∈ t.automationJobs.rows, ∀ r, j.providerJobId = some (.run r) →
    ∃ j' ∈ s.automationJobs.rows, j'.id = j.id ∧ j'.providerJobId = some (.run r)

variable {s t : Db} {c : Nat} {sts : List (Stmt Db)} {ns : List Nat} {now : Time} {job : AutomationJob}
  {asked : List JobStatus} {sender : ProviderRun} {input : AutomationCallback} {e : DispatchEnv}

theorem RunQuiet.of_eq (hb : t.remote = s.remote) (ho : t.outbox = s.outbox)
    (hj : t.automationJobs = s.automationJobs) : RunQuiet s t where
  builds := by rw [hb]
  retries := fun i => by unfold buildRetries; rw [ho]
  jobs := fun j hmem r hr => ⟨j, by rw [← hj]; exact hmem, rfl, hr⟩

theorem RunQuiet.refl (s : Db) : RunQuiet s s := .of_eq rfl rfl rfl

theorem RunQuiet.trans {u : Db} (h : RunQuiet s t) (h' : RunQuiet t u) : RunQuiet s u where
  builds := h'.builds.trans h.builds
  retries := fun i => (h'.retries i).trans (h.retries i)
  jobs := by
    intro j hj r hr
    obtain ⟨j', hj', hid', hr'⟩ := h'.jobs j hj r hr
    obtain ⟨j'', hj'', hid'', hr''⟩ := h.jobs j' hj' r hr'
    exact ⟨j'', hj'', hid''.trans hid', hr''⟩

theorem RunQuiet.runsRecorded (h : RunQuiet s t) (hrec : RunsRecorded s) : RunsRecorded t where
  recorded := by
    intro j hj r hr
    obtain ⟨j', hj', hid, hr'⟩ := h.jobs j hj r hr
    have := hrec.recorded j' hj' r hr'
    rw [hid, ← h.retries, ← h.builds] at this
    exact this
  distinct := by
    rw [h.builds]
    exact hrec.distinct

theorem updateJobs_runQuiet {p : Db → AutomationJob → Bool} {f : AutomationJob → AutomationJob}
    (hid : ∀ j, (f j).id = j.id)
    (hf : ∀ j, (f j).providerJobId = j.providerJobId ∨ ∀ r, (f j).providerJobId ≠ some (.run r)) :
    Within RunQuiet (update Db.automationJobsT p fun _ => f) := by
  intro c s n s' h
  obtain ⟨-, t, ht, rfl⟩ := update_ok h
  refine ⟨rfl, fun _ => rfl, fun j hj r hr => ?_⟩
  rw [show (Db.automationJobsT.set s t).automationJobs.rows = _ from ht] at hj
  obtain ⟨j', hj', rfl⟩ := mem_map.mp hj
  split at hr
  · next hp =>
    rw [if_pos hp]
    rcases hf j' with heq | hne
    · exact ⟨j', hj', (hid j').symm, by rw [← heq]; exact hr⟩
    · exact absurd hr (hne r)
  · next hp =>
    rw [if_neg hp]
    exact ⟨j', hj', rfl, hr⟩

theorem insertOutbox_runQuiet {c : OnConflict} {g : Db → List OutboxEvent}
    (hg : ∀ s, ∀ e ∈ g s, ∀ i, e.retryOf i = false) : Within RunQuiet (insert Db.outboxT c g) := by
  intro _ s n s' h
  obtain ⟨-, t, ht, rfl⟩ := insert_ok h
  refine ⟨rfl, fun i => ?_, fun j hj r hr => ⟨j, hj, rfl, hr⟩⟩
  have hcount : buildRetries (Db.outboxT.set s t) i = buildRetries s i + _ := count_append ht
  rw [hcount, Nat.add_eq_left, countP_eq_zero]
  intro e he
  rw [hg s e ((admitted_sublist _ _ _).subset he) i]
  decide

theorem audit_runQuiet (jobId : Id) (action : String) (p : AutomationJob → Bool) :
    Within RunQuiet (buildAuditStatement jobId action p) := by
  intro c s n s' h
  obtain ⟨-, t, -, rfl⟩ := insert_ok h
  exact .of_eq rfl rfl rfl

theorem event_runQuiet (c : OnConflict) (g : Db → List ShopOrderEvent) : Within RunQuiet (insert Db.eventsT c g) := by
  intro _ s n s' h
  obtain ⟨-, t, -, rfl⟩ := insert_ok h
  exact .of_eq rfl rfl rfl

theorem entitlement_runQuiet (p : Db → CustomerEntitlement → Bool)
    (f : Db → CustomerEntitlement → CustomerEntitlement) :
    Within RunQuiet (update Db.entitlementsT p f) := by
  intro _ s n s' h
  obtain ⟨-, t, -, rfl⟩ := update_ok h
  exact .of_eq rfl rfl rfl

theorem usageEvent_runQuiet (c : OnConflict) (g : Db → List UsageEvent) :
    Within RunQuiet (insert Db.usageEventsT c g) := by
  intro _ s n s' h
  obtain ⟨-, t, -, rfl⟩ := insert_ok h
  exact .of_eq rfl rfl rfl

theorem batch_runQuiet (hsts : ∀ st ∈ sts, Within RunQuiet st) (hb : batch sts c s = .ok (ns, t)) : RunQuiet s t :=
  batch_within .refl (fun _ _ _ h h' => h.trans h') hsts hb

/-! ## Creating, cancelling and retrying -/

theorem createBuild_runQuiet (input : CreateBuildInput) (context : CustomerEntitlement)
    (method : BuildMethod) (e : CreateBuildEnv) :
    ∀ st ∈ createBuildStatements input context method e, Within RunQuiet st := by
  intro st hst
  refine each_five ?_ ?_ ?_ ?_ ?_ _ hst
  · -- a new job has no run yet
    intro c s n s' h
    obtain ⟨-, t, ht, rfl⟩ := insert_abort_ok h
    refine ⟨rfl, fun _ => rfl, fun j hj r hr => ?_⟩
    rw [show (Db.automationJobsT.set s t).automationJobs.rows = _ from ht] at hj
    rcases mem_append.mp hj with hj | hj
    · exact ⟨j, hj, rfl, hr⟩
    · obtain ⟨ce, -, rfl⟩ := mem_map.mp hj
      cases hr
  · exact entitlement_runQuiet _ _
  · exact usageEvent_runQuiet _ _
  · refine insertOutbox_runQuiet fun s x hx i => ?_
    obtain ⟨j, -, rfl⟩ := mem_map.mp hx
    rfl
  · exact audit_runQuiet _ _ _

theorem cancelBuild_runQuiet (job : ActionJob) (now : Time) :
    ∀ st ∈ cancelBuildStatements job now, Within RunQuiet st := by
  intro st hst
  refine each_five ?_ ?_ ?_ ?_ ?_ _ hst
  · exact updateJobs_runQuiet (fun _ => rfl) fun _ => Or.inl rfl
  · exact onChanges_within fun _ => event_runQuiet _ _
  · exact onChanges_within fun _ => audit_runQuiet _ _ _
  · exact onChanges_within fun _ => entitlement_runQuiet _ _
  · exact usageEvent_runQuiet _ _

theorem retryTail_step {job : ActionJob} (hrec : RunsRecorded s)
    (hjob : ∀ j ∈ s.automationJobs.get? job.job.id, queuedAt now j = true →
      ∀ r, j.providerJobId ≠ some (.run r)) (hb : batch (retryTailStatements job now) c s = .ok (ns, t)) :
    RunsRecorded t := by
  obtain ⟨n1, s1, ms1, h1, hb1, -⟩ := batch_cons_ok hb
  have hquiet : RunQuiet s1 t := batch_runQuiet (fun st hst => by
    refine each_two ?_ ?_ _ hst
    · exact event_runQuiet _ _
    · exact audit_runQuiet _ _ _) hb1
  refine hquiet.runsRecorded ?_
  obtain ⟨-, tb, htb, rfl⟩ := insert_abort_ok h1
  refine ⟨fun j hj r hr => ?_, hrec.distinct⟩
  have hsame : buildRetries (Db.outboxT.set s tb) j.id = buildRetries s j.id := by
    have hcount : buildRetries (Db.outboxT.set s tb) j.id = buildRetries s j.id + _ :=
      count_append htb
    rw [hcount, Nat.add_eq_left, countP_eq_zero]
    intro e he
    obtain ⟨x, hx, rfl⟩ := mem_map.mp he
    rw [mem_filter, Bool.and_eq_true, beq_iff_eq] at hx
    intro heq
    have hid : job.job.id = j.id := by simpa [OutboxEvent.retryOf] using heq
    have hjx : j = x := eq_of_key hj hx.1 (hid.symm.trans hx.2.1.symm)
    refine hjob j ?_ (hjx ▸ hx.2.2) r hr
    rw [hid]
    exact mem_get? hj
  rw [hsame]
  exact hrec.recorded j hj r hr

theorem retryBuild_recorded {job : ActionJob} (hrec : RunsRecorded s)
    (hretry : job.job.status.retryable = true) (hcur : ∀ j ∈ s.automationJobs.get? job.job.id,
      j.status = job.job.status ∨ queuedAt now j = false)
    (hb : batch (retryBuildStatements job now) 0 s = .ok (ns, t)) : RunsRecorded t := by
  -- behind the job's UPDATE a job queued at this time has no run
  have hupdate : ∀ {c n : Nat} {u v : Db} {q : AutomationJob → Bool},
      u.automationJobs = s.automationJobs → RunsRecorded u →
      update Db.automationJobsT (fun _ j => j.id == job.job.id && q j) (fun _ j => retriedJob now j) c u
        = .ok (n, v) →
      RunsRecorded v ∧ ∀ j ∈ v.automationJobs.get? job.job.id, queuedAt now j = true →
        ∀ r, j.providerJobId ≠ some (.run r) := by
    intro c n u v q hjobs hu h
    have hquiet : RunQuiet u v := updateJobs_runQuiet (f := retriedJob now) (fun _ => rfl)
      (fun _ => Or.inr fun _ h => by cases h) _ _ _ _ h
    refine ⟨hquiet.runsRecorded hu, fun j hj hq r hr => ?_⟩
    obtain ⟨-, tj, ht, rfl⟩ := update_ok h
    have hmem : j ∈ tj.rows := get?_mem hj
    rw [ht] at hmem
    obtain ⟨j', hj', rfl⟩ := mem_map.mp hmem
    split at hr
    · cases hr
    · next hp =>
      rw [if_neg hp] at hj hq
      have hid : j'.id = job.job.id := get?_key hj
      have hget : s.automationJobs.get? job.job.id = some j' := by
        rw [← hid, ← hjobs]
        exact mem_get? hj'
      rcases hcur j' hget with hstatus | hno
      · rw [queuedAt, hstatus, Bool.and_eq_true, beq_iff_eq] at hq
        rw [hq.1] at hretry
        cases hretry
      · rw [hno] at hq
        cases hq
  unfold retryBuildStatements at hb
  split at hb
  · obtain ⟨n1, s1, ms1, h1, hb1, -⟩ := batch_cons_ok hb
    obtain ⟨n2, s2, ms2, h2, hb2, -⟩ := batch_cons_ok hb1
    obtain ⟨n3, s3, ms3, h3, hb3, -⟩ := batch_cons_ok hb2
    have hs1 : RunsRecorded s1 := (entitlement_runQuiet _ _ _ _ _ _ h1).runsRecorded hrec
    have hj1 : s1.automationJobs = s.automationJobs :=
      Keeps.eq (update_keeps (g := Db.automationJobs) fun _ _ => rfl) h1
    obtain ⟨hs2, hjob2⟩ := hupdate (q := fun j => j.status == job.job.status && n1 == 1) hj1 hs1
      (by simpa only [Bool.and_assoc] using onChanges_ok h2)
    have hs3 : RunsRecorded s3 := (usageEvent_runQuiet _ _ _ _ _ _ h3).runsRecorded hs2
    have hj3 : s3.automationJobs = s2.automationJobs :=
      Keeps.eq (insert_keeps (g := Db.automationJobs) fun _ _ => rfl) h3
    exact retryTail_step hs3 (by rw [hj3]; exact hjob2) hb3
  · obtain ⟨n1, s1, ms1, h1, hb1, -⟩ := batch_cons_ok hb
    obtain ⟨hs1, hjob1⟩ := hupdate (q := fun j => j.status == job.job.status) rfl hrec h1
    exact retryTail_step hs1 hjob1 hb1

/-! ## Conditions on the callbacks -/

/-- What a provider promises: the runs of a job have distinct numbers, and a run reports on its own
job and under its own number. -/
def honestProviders : BuildSite → Db → Prop
  | .requestBuild jobId run, s => ∀ r ∈ run, ∀ b ∈ s.remote.builds, b.jobId = jobId → b.run ≠ r
  | .automationCallback sender jobId providerJobId _ _, s =>
    sender ∈ s.remote.builds ∧ sender.jobId = jobId ∧ ∀ p ∈ providerJobId, p = .run sender.run
  | _, _ => True

def ProviderJobId.isRun : ProviderJobId → Bool
  | .run _ => true
  | .job _ => false

def ProviderJobId.OfAttempt (s : Db) (jobId : Id) : ProviderJobId → Prop
  | .run r => ⟨jobId, r, buildRetries s jobId⟩ ∈ s.remote.builds
  | .job _ => True

/-- The callback names its run, it has read a job with a run recorded, and the job still has it. -/
def CallbackRecorded (s : Db) (jobId : Id) (providerJobId recorded : Option ProviderJobId) : Prop :=
  providerJobId ≠ none ∧ recorded.any ProviderJobId.isRun = true ∧
    ∀ j ∈ s.automationJobs.get? jobId, j.providerJobId = recorded

/-- The condition on a run: a callback of an earlier attempt's run meets a job that is past its reach,
a dispatch records a run of the current attempt, and a retry that comes too late does not find the job
queued in the same millisecond. -/
def attemptCurrent (x : BuildSite) (s : Db) : Prop :=
  honestProviders x s ∧ match x with
  | .automationCallback sender jobId providerJobId recorded asked =>
    sender.attempt = buildRetries s jobId ∨ (∀ j ∈ s.automationJobs.get? jobId, j.status ∉ asked) ∨
      CallbackRecorded s jobId providerJobId recorded
  | .recordDispatch jobId recorded => ∀ j ∈ s.automationJobs.get? jobId, j.status = .dispatching →
    recorded.OfAttempt s jobId
  | .retryBuildJob jobId status _ now => ∀ j ∈ s.automationJobs.get? jobId, j.status = status ∨ queuedAt now j = false
  | _ => True

instance (x : BuildSite) (s : Db) : Decidable (honestProviders x s) :=
  match x with
  | .requestBuild jobId run =>
    inferInstanceAs (Decidable (∀ r ∈ run, ∀ b ∈ s.remote.builds, b.jobId = jobId → b.run ≠ r))
  | .automationCallback sender jobId providerJobId _ _ => inferInstanceAs (Decidable
    (sender ∈ s.remote.builds ∧ sender.jobId = jobId ∧ ∀ p ∈ providerJobId, p = .run sender.run))
  | .createBuildJob _ | .cancelBuildJob _ | .retryBuildJob _ _ _ _ | .expireBuild _ | .claimBuild _
  | .recordDispatchFailure _ | .recordDispatch _ _ | .runMaintenance => isTrue trivial

instance (s : Db) (jobId : Id) (p : ProviderJobId) : Decidable (p.OfAttempt s jobId) :=
  match p with
  | .run r => inferInstanceAs (Decidable ((⟨jobId, r, buildRetries s jobId⟩ : ProviderRun) ∈ _))
  | .job _ => isTrue trivial

instance (s : Db) (jobId : Id) (providerJobId recorded : Option ProviderJobId) :
    Decidable (CallbackRecorded s jobId providerJobId recorded) :=
  inferInstanceAs (Decidable (_ ∧ _ ∧ _))

instance (x : BuildSite) (s : Db) : Decidable (attemptCurrent x s) :=
  match x with
  | .automationCallback sender jobId providerJobId recorded asked => inferInstanceAs (Decidable
    (honestProviders (.automationCallback sender jobId providerJobId recorded asked) s ∧
      (sender.attempt = buildRetries s jobId ∨ (∀ j ∈ s.automationJobs.get? jobId, j.status ∉ asked) ∨
        CallbackRecorded s jobId providerJobId recorded)))
  | .recordDispatch jobId recorded => inferInstanceAs (Decidable
    (True ∧ ∀ j ∈ s.automationJobs.get? jobId, j.status = .dispatching → recorded.OfAttempt s jobId))
  | .retryBuildJob jobId status _ now => inferInstanceAs (Decidable
    (True ∧ ∀ j ∈ s.automationJobs.get? jobId, j.status = status ∨ queuedAt now j = false))
  | .requestBuild jobId run =>
    inferInstanceAs (Decidable (honestProviders (.requestBuild jobId run) s ∧ True))
  | .createBuildJob _ | .cancelBuildJob _ | .expireBuild _ | .claimBuild _
  | .recordDispatchFailure _ | .runMaintenance => isTrue ⟨trivial, trivial⟩

/-! ## Reports -/

theorem providerJobOwned_run {p : ProviderJobId} {r : Nat} (h : providerJobOwned job (some p) = true)
    (hr : job.providerJobId = some (.run r)) : p = .run r := by
  simp only [providerJobOwned, hr, Bool.or_eq_true, Bool.and_eq_true, beq_iff_eq] at h
  rcases h with ⟨-, h⟩ | h
  · cases h
  · exact h.symm

theorem reportTail_runQuiet (input : AutomationCallback) (now : Time) : ∀ st ∈ (callbackStatements input now).tail,
      Within RunQuiet st ∧ Keeps Db.automationJobs st := by
  intro st hst
  simp only [callbackStatements, tail_cons, mem_cons, not_mem_nil, or_false] at hst
  rcases hst with rfl | rfl
  · refine ⟨insertOutbox_runQuiet fun s e he i => ?_, insert_off rfl⟩
    obtain ⟨j, -, he⟩ := mem_flatMap.mp he
    obtain ⟨o, -, rfl⟩ := map_eq_some_iff.mp (mem_toList.mp he)
    rfl
  · exact ⟨event_runQuiet _ _, insert_off rfl⟩

theorem report_step {q : JobStatus → Bool} {n : Nat} (hrec : RunsRecorded s)
    (howned : providerJobOwned job input.providerJobId = true) (hq : ∀ st, q st = true ↔ st ∈ asked)
    (hcur : attemptCurrent (.automationCallback sender input.jobId input.providerJobId job.providerJobId asked) s)
    (h : update Db.automationJobsT (fun _ j => j.id == input.jobId && q j.status)
      (fun _ j => reportedJob input now j) 0 s = .ok (n, t)) :
    RunsRecorded t ∧ (sender.attempt ≠ buildRetries s input.jobId → t = s) := by
  obtain ⟨⟨hsent, hjobId, hnamed⟩, hcur⟩ := hcur
  rcases update_key_cases (q := fun j : AutomationJob => q j.status) (fun _ => rfl) h with
    ⟨-, -, rfl⟩ | ⟨-, j, tj, hget, hstatus, htj, rfl⟩
  · exact ⟨hrec, fun _ => rfl⟩
  · have hget' : s.automationJobs.get? input.jobId = some j := hget
    have hid : j.id = input.jobId := get?_key hget'
    -- the job was hit, so it lies within reach: the sender is of its attempt
    have hnow : sender.attempt = buildRetries s input.jobId := by
      rcases hcur with hnow | hpast | ⟨hsome, hrecorded, hstill⟩
      · exact hnow
      · exact absurd ((hq _).mp hstatus) (hpast j hget')
      · obtain ⟨p, hp⟩ := ne_none_iff_exists'.mp hsome
        rw [hp] at howned
        obtain ⟨r, hr⟩ : ∃ r, job.providerJobId = some (.run r) := by
          cases hx : job.providerJobId with
          | none =>
            rw [hx] at hrecorded
            cases hrecorded
          | some x =>
            rw [hx] at hrecorded
            cases x with
            | run r => exact ⟨r, rfl⟩
            | job id => cases hrecorded
        have hpr : p = .run r := providerJobOwned_run howned hr
        have hself : ProviderJobId.run r = .run sender.run := hpr ▸ hnamed p hp
        cases hself
        have hmem := hrec.recorded j (get?_mem hget') sender.run ((hstill j hget').trans hr)
        rw [hid] at hmem
        exact congrArg ProviderRun.attempt (hrec.distinct _ hsent _ hmem hjobId rfl)
    refine ⟨⟨fun x hx r hr => ?_, hrec.distinct⟩, fun hold => absurd hnow hold⟩
    rw [show (Db.automationJobsT.set s tj).automationJobs.rows = _ from htj] at hx
    obtain ⟨y, hy, rfl⟩ := mem_map.mp hx
    split at hr
    · next hk =>
      have hyj : y = j := eq_of_key hy (get?_mem hget') (hk.trans hid.symm)
      subst hyj
      rw [if_pos hk]
      show ⟨y.id, r, buildRetries s y.id⟩ ∈ s.remote.builds
      cases hp : input.providerJobId with
      | none =>
        refine hrec.recorded y hy r ?_
        simpa [reportedJob, hp] using hr
      | some p =>
        have hpr : p = .run r := by simpa [reportedJob, hp] using hr
        have hself : ProviderJobId.run r = .run sender.run := hpr ▸ hnamed p hp
        cases hself
        rw [hid, ← hnow, ← hjobId]
        exact hsent
    · next hk =>
      rw [if_neg hk]
      exact hrec.recorded y hy r hr

/-! ## The calls -/

def attemptSpec : Spec Db BuildSite Empty :=
  .ofRel RunsRecorded attemptCurrent (fun _ _ => True) (fun _ _ => True) (fun _ => trivial)
    (fun _ => trivial) fun _ _ _ _ _ => trivial

def OldCallbackKept (x : BuildSite) (s t : Db) (_ : Call BuildSite Unit) : Prop :=
  match x with
  | .automationCallback sender jobId _ _ _ =>
    sender.attempt ≠ buildRetries s jobId → jobReport t jobId = jobReport s jobId
  | _ => True

theorem attemptSpec_admits (h : RunsRecorded t) : attemptSpec.Admits ∅ ∅ s t :=
  Spec.admits_ofRel h trivial fun _ => trivial

theorem batch_attempt (hsts : ∀ st ∈ sts, Within RunQuiet st) (hrec : RunsRecorded s)
    (hb : batch sts 0 s = .ok (ns, t)) : attemptSpec.Admits ∅ ∅ s t :=
  attemptSpec_admits ((batch_runQuiet hsts hb).runsRecorded hrec)

theorem startRun_recorded {jobId : Id} {run : Option Nat} (hrec : RunsRecorded s)
    (hfresh : ∀ r ∈ run, ∀ b ∈ s.remote.builds, b.jobId = jobId → b.run ≠ r) :
    RunsRecorded (startRun jobId run s) where
  recorded := fun j hj r hr => mem_append_left _ (hrec.recorded j hj r hr)
  distinct := by
    intro b hb b' hb' hj hr
    have hnew : ∀ x ∈ (run.map fun r => (⟨jobId, r, buildRetries s jobId⟩ : ProviderRun)).toList,
        ∃ r ∈ run, x = ⟨jobId, r, buildRetries s jobId⟩ := by
      intro x hx
      obtain ⟨r, hr, rfl⟩ := map_eq_some_iff.mp (mem_toList.mp hx)
      exact ⟨r, hr, rfl⟩
    rcases mem_append.mp hb with hb | hb <;> rcases mem_append.mp hb' with hb' | hb'
    · exact hrec.distinct b hb b' hb' hj hr
    · obtain ⟨r, hrun, rfl⟩ := hnew b' hb'
      exact absurd hr (hfresh r hrun b hb hj)
    · obtain ⟨r, hrun, rfl⟩ := hnew b hb
      exact absurd hr.symm (hfresh r hrun b' hb' hj.symm)
    · obtain ⟨r, hrun, rfl⟩ := hnew b hb
      obtain ⟨r', hrun', rfl⟩ := hnew b' hb'
      rw [mem_unique hrun hrun']

theorem recordDispatch_step {run : Nat} (hrec : RunsRecorded s)
    (hown : ∀ j ∈ s.automationJobs.get? job.id, j.status = .dispatching →
      (dispatchedJobId job run).OfAttempt s job.id)
    (hb : batch (recordDispatchStatements job run e) 0 s = .ok (ns, t)) : RunsRecorded t := by
  obtain ⟨n1, s1, ms1, h1, hb1, -⟩ := batch_cons_ok hb
  have hquiet : RunQuiet s1 t := batch_runQuiet (fun st hst => by
    rw [mem_singleton.mp hst]
    exact audit_runQuiet _ _ _) hb1
  refine hquiet.runsRecorded ?_
  rcases update_key_cases (q := fun j : AutomationJob => j.status == .dispatching) (fun _ => rfl) h1
    with ⟨-, -, rfl⟩ | ⟨-, j, tj, hget, hstatus, htj, rfl⟩
  · exact hrec
  · have hget' : s.automationJobs.get? job.id = some j := hget
    have hid : j.id = job.id := get?_key hget'
    refine ⟨fun x hx r hr => ?_, hrec.distinct⟩
    rw [show (Db.automationJobsT.set s tj).automationJobs.rows = _ from htj] at hx
    obtain ⟨y, hy, rfl⟩ := mem_map.mp hx
    split at hr
    · next hk =>
      have hyj : y = j := eq_of_key hy (get?_mem hget') (hk.trans hid.symm)
      subst hyj
      rw [if_pos hk]
      show ⟨y.id, r, buildRetries s y.id⟩ ∈ s.remote.builds
      have hmem := hown y hget' (by simpa using hstatus)
      rw [some.inj hr] at hmem
      rw [hid]
      exact hmem
    · next hk =>
      rw [if_neg hk]
      exact hrec.recorded y hy r hr

theorem callback_recorded {e : CallbackEnv} (howned : providerJobOwned job input.providerJobId = true)
    (hsts : (asked, sts) ∈ [([input.status.job], [repeatedReportStatement input e.now]),
      ([.dispatching, .running], callbackStatements input e.now)]) :
    CommitOk attemptSpec OldCallbackKept
      (.automationCallback sender input.jobId input.providerJobId job.providerJobId asked) sts := by
  intro s ns t k hrec hcur hb
  -- in both batches the job's UPDATE comes first
  obtain ⟨q, rest, hq, hrest, rfl⟩ : ∃ (q : JobStatus → Bool) (rest : List (Stmt Db)),
      (∀ st, q st = true ↔ st ∈ asked) ∧
      (∀ st ∈ rest, Within RunQuiet st ∧ Keeps Db.automationJobs st) ∧
      sts = update Db.automationJobsT (fun _ j => j.id == input.jobId && q j.status)
        (fun _ j => reportedJob input e.now j) :: rest := by
    simp only [mem_cons, Prod.mk.injEq, not_mem_nil, or_false] at hsts
    rcases hsts with ⟨rfl, rfl⟩ | ⟨rfl, rfl⟩
    · exact ⟨fun st => st == input.status.job, [], by simp, by simp, rfl⟩
    · exact ⟨fun st => st == .dispatching || st == .running, _, by simp, reportTail_runQuiet input e.now, rfl⟩
  obtain ⟨n1, s1, ms1, h1, hb1, -⟩ := batch_cons_ok hb
  obtain ⟨hrec1, hold⟩ := report_step hrec howned hq hcur h1
  have hquiet : RunQuiet s1 t := batch_runQuiet (fun st hst => (hrest st hst).1) hb1
  have hjobs : t.automationJobs = s1.automationJobs :=
    batch_keeps (fun st hst => (hrest st hst).2) hb1
  refine ⟨attemptSpec_admits (hquiet.runsRecorded hrec1), fun hne => ?_⟩
  unfold jobReport
  rw [hjobs, hold hne]

theorem DispatchBatch.attempt {x : BuildSite} (h : DispatchBatch e x sts) :
    CommitOk attemptSpec OldCallbackKept x sts := by
  intro t ns u k hi hcur hb
  cases h with
  | expire jobId =>
    refine ⟨batch_attempt (fun st hst => ?_) hi hb, trivial⟩
    rw [mem_singleton.mp hst]
    exact updateJobs_runQuiet (fun _ => rfl) fun _ => Or.inl rfl
  | claim jobId =>
    refine ⟨batch_attempt (fun st hst => ?_) hi hb, trivial⟩
    rw [mem_singleton.mp hst]
    exact updateJobs_runQuiet (fun _ => rfl) fun _ => Or.inl rfl
  | failure jobId attemptCount =>
    refine ⟨batch_attempt (fun st hst => ?_) hi hb, trivial⟩
    rw [mem_singleton.mp hst]
    exact updateJobs_runQuiet (fun _ => rfl) fun _ => Or.inl rfl
  | record job run => exact ⟨attemptSpec_admits (recordDispatch_step hi hcur.2 hb), trivial⟩

theorem maintenance_runQuiet (now : Time) : ∀ st ∈ maintenanceStatements now, Within RunQuiet st := by
  intro st hst
  refine each_two ?_ ?_ _ hst
  · exact entitlement_runQuiet _ _
  · exact updateJobs_runQuiet (fun _ => rfl) fun _ => Or.inl rfl

theorem buildCall_attempt (c : BuildCall) (s : Db) : Prog.Each attemptSpec OldCallbackKept c.code s := by
  cases c with
  | create input e =>
    exact createBuildJob_each fun _ _ t ns u k hi _ hb _ =>
      ⟨batch_attempt (createBuild_runQuiet _ _ _ _) hi hb, trivial⟩
  | cancel jobId orderId now =>
    exact cancelBuildJob_each fun _ t ns u k _ hi _ hb _ =>
      ⟨batch_attempt (cancelBuild_runQuiet _ _) hi hb, trivial⟩
  | retry jobId orderId e =>
    exact retryBuildJob_each fun _ t ns u k _ hretry hi hcur hb _ =>
      ⟨attemptSpec_admits (retryBuild_recorded hi hretry hcur.2 hb), trivial⟩
  | dispatch jobId e =>
    exact dispatchBuild_each (fun x sts h => h.attempt) fun id t k hi hcur =>
      ⟨attemptSpec_admits (startRun_recorded hi hcur.1), trivial⟩
  | callback sender input e =>
    exact processAutomationCallback_each fun job howned asked sts hsts => callback_recorded howned hsts
  | maintenance now =>
    exact runMaintenance_each fun t ns u k hi _ hb =>
      ⟨batch_attempt (maintenance_runQuiet now) hi hb, trivial⟩

/-- In every run whose callbacks of earlier attempts come after the id of a run is recorded for the
job, none of them changes the job's status, provider job id or run URL. -/
theorem old_callbacks_change_nothing {s : Db} (h0 : RunsRecorded s)
    {w : World Db BuildSite DomainError Unit} (hrun : Runs BuildCall.code attemptCurrent ⟨s, []⟩ w)
    {i : Nat} {sender : ProviderRun} {jobId : Id} {providerJobId recorded : Option ProviderJobId}
    {asked : List JobStatus}
    (hsite : w.site i = some (.automationCallback sender jobId providerJobId recorded asked))
    (hold : sender.attempt < buildRetries w.db jobId) :
    jobReport (w.move BuildCall.code attemptCurrent (.run i)).db jobId = jobReport w.db jobId := by
  have hcode : ∀ c s, attemptSpec.inv s → Prog.Each attemptSpec OldCallbackKept (BuildCall.code c) s :=
    fun c s _ => buildCall_attempt c s
  let _ : ∀ x s, Decidable (attemptSpec.cond x s) :=
    inferInstanceAs (∀ x s, Decidable (attemptCurrent x s))
  rcases Runs.move hcode h0 hrun hsite with heq | ⟨_, -, -, hkept⟩
  · exact congrArg (jobReport · jobId) heq
  · exact hkept hold.ne

/-! ## Two runs -/

def failedBuildDb : Db where
  sellableItems := .of [{ id := 7 }]
  items := .of [{ id := 5, orderId := 3, sellableItemId := 7, deliveryComponentId := 7
                  deliveryComponentType := .automation, quantity := 1 }]
  entitlements := .of [{ id := 2, userId := some 1, orderItemId := 5, sellableItemId := 7
                         status := .active, usageLimit := some 2, usageCount := 1 }]
  automationJobs := .of [{ id := 9, entitlementId := 2, orderItemId := 5, sellableItemId := 7
                           provider := .gitlabCi, artifactRequired := false, idempotencyKey := 1
                           status := .failed, providerJobId := some (.run 4), timeoutAt := 90
                           updatedAt := 4 }]
  remote := { builds := [⟨9, 4, 0⟩] }

theorem failedBuildDb_recorded : RunsRecorded failedBuildDb where
  recorded := by
    intro j hj r hr
    obtain rfl := mem_singleton.mp hj
    cases hr
    decide
  distinct := by decide

def dispatchAt (now : Time) (run : Nat) : BuildCall :=
  .dispatch 9 ⟨now, .ok (), .accepted run true, now, 0⟩

def firstRunReports (now : Time) : BuildCall :=
  .callback ⟨9, 4, 0⟩ { jobId := 9, status := .running, providerJobId := some (.run 4) } ⟨.ok (), false, now⟩

/-- The job is retried; before it is sent out again, the first run reports. -/
def earlyReportRun : World Db BuildSite DomainError Unit :=
  World.exec BuildCall.code attemptCurrent ⟨failedBuildDb, []⟩
    [.start (.retry 9 none ⟨true, 10, 10⟩), .run 0, .run 0, .start (firstRunReports 11), .run 1]

/-- The job is retried and sent out; before its new run is recorded, the first one reports. -/
def mistakenReportRun : World Db BuildSite DomainError Unit :=
  World.exec BuildCall.code honestProviders ⟨failedBuildDb, []⟩
    [.start (.retry 9 none ⟨true, 10, 10⟩), .run 0, .run 0, .start (dispatchAt 11 5), .run 1, .run 1,
      .run 1, .start (firstRunReports 12), .run 2]

def firstRunSite : BuildSite :=
  .automationCallback ⟨9, 4, 0⟩ 9 (some (.run 4)) none [.dispatching, .running]

theorem old_callbacks_change_nothing_earlyReportRun : jobReport earlyReportRun.db 9 = some (.queued, none, none) ∧
      jobReport (earlyReportRun.move BuildCall.code attemptCurrent (.run 1)).db 9 = jobReport earlyReportRun.db 9 :=
  ⟨by decide, old_callbacks_change_nothing failedBuildDb_recorded
    (World.exec_runs BuildCall.code attemptCurrent _ _)
    (show earlyReportRun.site 1 = some firstRunSite from by decide) (by decide)⟩

/-- The first run's report sets the job running under its own id. -/
theorem not_old_callbacks_change_nothing : ¬∀ s, RunsRecorded s → ∀ w : World Db BuildSite DomainError Unit,
      Runs BuildCall.code honestProviders ⟨s, []⟩ w → ∀ i sender jobId providerJobId recorded asked,
      w.site i = some (.automationCallback sender jobId providerJobId recorded asked) →
      sender.attempt < buildRetries w.db jobId →
      jobReport (w.move BuildCall.code honestProviders (.run i)).db jobId = jobReport w.db jobId := by
  intro h
  have hkept := h failedBuildDb failedBuildDb_recorded mistakenReportRun
    (World.exec_runs BuildCall.code honestProviders _ _) 2 _ _ _ _ _
    (show mistakenReportRun.site 2 = some firstRunSite from by decide) (by decide)
  have hbefore : jobReport mistakenReportRun.db 9 = some (.dispatching, none, none) := by
    decide
  have hafter : jobReport (mistakenReportRun.move BuildCall.code honestProviders (.run 2)).db 9 =
      some (.running, some (.run 4), none) := by decide
  rw [hbefore, hafter] at hkept
  cases hkept

end Gmshop
