import GmshopEdge.Builds.Dispatch

/-!
# The obligations of the build calls

Each call asks its obligation only of the batches it commits, with what the call has read of the job
before; the path to a batch and behind it is the same for every property of a run.
-/

namespace Gmshop

open Sql Stmt Prog Option

variable {τ : Type} {S : Spec Db BuildSite τ} {P : BuildSite → Db → Db → Call BuildSite Unit → Prop}

/-- A batch of a call: wherever `S` lets it commit it is an admitted step that satisfies `P`. -/
def CommitOk (S : Spec Db BuildSite τ) (P : BuildSite → Db → Db → Call BuildSite Unit → Prop)
    (x : BuildSite) (sts : List (Stmt Db)) : Prop :=
  ∀ t ns u k, S.inv t → S.cond x t → batch sts 0 t = .ok (ns, u) → S.Admits ∅ ∅ t u ∧ P x t u k

theorem CommitOk.each {x : BuildSite} {sts : List (Stmt Db)} (h : CommitOk S P x sts)
    (f : Call BuildSite (List Nat) → Call BuildSite Unit) (s : Db) :
    Prog.Each S (fun x t u q => P x t u (f q)) (commit x sts) s :=
  Each.commit fun t _ hi hc _ _ hb => h t _ _ _ hi hc hb

def JobRead (S : Spec Db BuildSite τ) (jobId : Id) (job : AutomationJob) (t : Db) : Prop :=
  ∃ s, S.rely ∅ s t ∧ s.automationJobs.get? jobId = some job

variable {s : Db} {jobId : Id} {orderId : Option Id} {now : Time}

theorem createBuildJob_each {input : CreateBuildInput} {e : CreateBuildEnv}
    (h : ∀ context method t ns u k, S.inv t → S.cond (.createBuildJob e.jobId) t →
      batch (createBuildStatements input context method e) 0 t = .ok (ns, u) →
      (ns[0]? = some 1 → k = .done ()) → S.Admits ∅ ∅ t u ∧ P (.createBuildJob e.jobId) t u k) :
    Prog.Each S P (createBuildJob input e).void s := by
  refine Each.void (Each.query fun t _ _ => ?_)
  cases findBuildJob t input.idempotencyKey with
  | some job => exact Each.done _
  | none =>
    cases horder : e.order with
    | error err => exact Each.throw _
    | ok orderId =>
      refine Each.query fun t _ _ => ?_
      split
      · next context method _ _ =>
        cases hinputs : e.inputs with
        | error err => exact Each.throw _
        | ok u =>
          refine Each.bind (Each.done _) fun _ t _ => ?_
          refine Each.bind (Each.tryCatch (Each.bind (Each.commit ?_) ?_) ?_) ?_
          · exact fun t _ hi hc ns u hb => h context method t ns u _ hi hc hb fun h0 => by
              simp [Prog.tryCatch, h0, Prog.void]
          · exact fun _ _ _ => Each.done _
          · intro err t _
            refine Each.query fun t _ _ => ?_
            cases findBuildJob t input.idempotencyKey with
            | some job => exact Each.done _
            | none => exact Each.fail _
          · intro result t _
            cases result with
            | inl job => exact Each.done _
            | inr results =>
              dsimp only
              split
              · exact Each.done _
              · exact Each.throw _
      · exact Each.throw _

theorem loadActionJob_row {job : ActionJob} (h : loadActionJob s jobId orderId = some job) :
    s.automationJobs.get? job.job.id = some job.job := by
  unfold loadActionJob at h
  cases hj : s.automationJobs.get? jobId with
  | none => simp [hj] at h
  | some j =>
    have hid : j.id = jobId := Table.get?_key hj
    simp only [hj, bind_eq_bind, bind_some] at h
    obtain ⟨_, _, h⟩ := bind_eq_some_iff.mp h
    obtain ⟨_, _, h⟩ := bind_eq_some_iff.mp h
    obtain ⟨_, _, h⟩ := bind_eq_some_iff.mp h
    split at h
    · cases h
      rw [hid]
      exact hj
    · cases h

theorem cancelBuildJob_each (h : ∀ job t ns u k, JobRead S job.job.id job.job t → S.inv t →
      S.cond (.cancelBuildJob job.job.id) t →
      batch (cancelBuildStatements job now) 0 t = .ok (ns, u) → (ns[0]? = some 1 → k = .done ()) →
      S.Admits ∅ ∅ t u ∧ P (.cancelBuildJob job.job.id) t u k) :
    Prog.Each S P (cancelBuildJob jobId orderId now).void s := by
  refine Each.void (Each.query fun t _ _ => ?_)
  cases hjob : loadActionJob t jobId orderId with
  | none => exact Each.throw _
  | some job =>
    dsimp only
    split
    · exact Each.throw _
    · refine Each.bind (Each.commit fun u hr hi hc ns v hb => ?_) fun results _ _ => ?_
      · exact h job u ns v _ ⟨t, hr, loadActionJob_row hjob⟩ hi hc hb fun h0 => by
          simp [h0, void]
      · split
        · exact Each.done _
        · exact Each.throw _

theorem retryBuildJob_each {e : RetryEnv}
    (h : ∀ job t ns u k, JobRead S job.job.id job.job t → job.job.status.retryable = true → S.inv t →
      S.cond (.retryBuildJob job.job.id job.job.status job.job.usageRestoredAt.isSome e.now) t →
      batch (retryBuildStatements job e.now) 0 t = .ok (ns, u) →
      (job.job.usageRestoredAt.isSome = true → ns[0]? = some 1 → ns[1]? = some 1 → k = .done ()) →
      S.Admits ∅ ∅ t u ∧ P (.retryBuildJob job.job.id job.job.status job.job.usageRestoredAt.isSome e.now) t u k) :
    Prog.Each S P (retryBuildJob jobId orderId e).void s := by
  refine Each.void (Each.query fun t _ _ => ?_)
  cases hjob : loadActionJob t jobId orderId with
  | none => exact Each.throw _
  | some job =>
    dsimp only
    split
    · exact Each.throw _
    · next hretry =>
      split
      · exact Each.throw _
      · refine Each.bind (Each.commit fun u hr hi hc ns v hb => ?_) fun results _ _ => ?_
        · exact h job u ns v _ ⟨t, hr, loadActionJob_row hjob⟩ (by simpa using hretry) hi hc hb
            fun hrestored h0 h1 => by simp [hrestored, h0, h1, void]
        · split
          · exact Each.throw _
          · by_cases h : (results[if job.job.usageRestoredAt.isSome then 1 else 0]?).getD 0 ≠ 1
            · rw [if_pos h]
              exact Each.throw _
            · rw [if_neg h]
              exact Each.done _

inductive DispatchBatch (e : DispatchEnv) : BuildSite → List (Stmt Db) → Prop
  | expire (jobId : Id) : DispatchBatch e (.expireBuild jobId) [expireBuildStatement jobId e.now]
  | claim (jobId : Id) : DispatchBatch e (.claimBuild jobId) [claimBuildStatement jobId e.now]
  | failure (jobId : Id) (attemptCount : Nat) : DispatchBatch e (.recordDispatchFailure jobId)
      [recordDispatchFailureStatement jobId attemptCount e.failedAt]
  | record (job : AutomationJob) (run : Nat) : DispatchBatch e
      (.recordDispatch job.id (dispatchedJobId job run)) (recordDispatchStatements job run e)

theorem dispatchBuild_each {e : DispatchEnv} (h : ∀ x sts, DispatchBatch e x sts → CommitOk S P x sts)
    (hrequest : ∀ jobId t k, S.inv t → S.cond (.requestBuild jobId e.response.run) t →
      S.Admits ∅ ∅ t (startRun jobId e.response.run t) ∧
        P (.requestBuild jobId e.response.run) t (startRun jobId e.response.run t) k) :
    Prog.Each S P (dispatchBuild jobId e).void s := by
  refine Each.void (Each.query fun t _ _ => ?_)
  split
  · exact Each.throw _
  · next job _ =>
    split
    · exact Each.done _
    split
    · exact Each.bind ((h _ _ (.expire _)).each _ _) fun _ _ _ => Each.throw _
    · refine Each.bind ((h _ _ (.claim _)).each _ _) fun claimed t _ => ?_
      split
      · exact Each.throw _
      cases hprepared : e.prepared with
      | error err => exact Each.throw _
      | ok u =>
        refine Each.bind (Each.done _) fun _ t _ => ?_
        refine Each.bind (Each.effect fun t _ hi hc => hrequest _ t _ hi hc) fun _ t _ => ?_
        cases e.response with
        | unreachable run => exact Each.bind ((h _ _ (.failure _ _)).each _ _) fun _ _ _ => Each.throw _
        | rejected status => exact Each.bind ((h _ _ (.failure _ _)).each _ _) fun _ _ _ => Each.throw _
        | accepted run readable =>
          dsimp only
          split
          · exact Each.throw _
          · exact Each.bind ((h _ _ (.record job run)).each _ _) fun _ _ _ => Each.done _

theorem processAutomationCallback_each {sender : ProviderRun} {input : AutomationCallback} {e : CallbackEnv}
    (h : ∀ job, providerJobOwned job input.providerJobId = true → ∀ asked sts,
      (asked, sts) ∈ [([input.status.job], [repeatedReportStatement input e.now]),
        ([.dispatching, .running], callbackStatements input e.now)] →
      CommitOk S P (.automationCallback sender input.jobId input.providerJobId job.providerJobId asked)
        sts) : Prog.Each S P (processAutomationCallback sender input e).void s := by
  refine Each.void (Each.query fun t _ _ => ?_)
  cases hjob : t.automationJobs.get? input.jobId with
  | none => exact Each.throw _
  | some job =>
    have hid : job.id = input.jobId := Table.get?_key hjob
    cases hsigned : e.signed with
    | error err => exact Each.throw _
    | ok u =>
      refine Each.bind (Each.done _) fun _ t _ => ?_
      rw [hid]
      split
      · exact Each.throw _
      · next howned =>
        have howned' : providerJobOwned job input.providerJobId = true := by simpa using howned
        dsimp only
        split
        · exact Each.bind ((h job howned' _ _ (by simp)).each _ _) fun _ _ _ => Each.done _
        split
        · exact Each.throw _
        · refine Each.bind ((h job howned' _ _ (by simp)).each _ _) fun _ _ _ => ?_
          split
          · exact Each.done _
          · exact Each.throw _

theorem runMaintenance_each (h : CommitOk S P .runMaintenance (maintenanceStatements now)) :
    Prog.Each S P (runMaintenance now) s :=
  Each.bind (h.each _ _) fun _ _ _ => Each.done _

end Gmshop
