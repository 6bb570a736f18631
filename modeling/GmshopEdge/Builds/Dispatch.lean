import GmshopEdge.Builds.Jobs

/-!
# Dispatching builds and their callbacks

`dispatchBuild` sends a claimed job to its provider and records the provider's run;
`processAutomationCallback` takes the reports that the run sends back. The request to the provider
is a step of its own (`Remote.builds` remembers the runs it started), since everything else may
happen between it and the batch that records it.
-/

namespace Gmshop

open Sql Stmt

/-! ## Dispatch -/

/-- What becomes of the request to the provider. A request that got no answer may have started a run
all the same; an accepted one whose answer is unreadable has. -/
inductive DispatchResponse where
  | unreachable (run : Option Nat)
  | rejected (status : Nat)
  | accepted (run : Nat) (readable : Bool)

def DispatchResponse.run : DispatchResponse → Option Nat
  | .unreachable run => run
  | .rejected _ => none
  | .accepted run _ => some run

/-- `prepared` is what the runtime configuration, the secrets and the stored inputs answer. -/
structure DispatchEnv where
  now : Time
  prepared : Except DomainError Unit
  response : DispatchResponse
  failedAt : Time
  runUrl : Nat

def OutboxEvent.retryOf (jobId : Id) (e : OutboxEvent) : Bool :=
  match e.idempotencyKey with
  | .automationRetry id _ => id == jobId
  | _ => false

/-- How often the job was retried: each retry leaves one outbox row under its own key. -/
def buildRetries (s : Db) (jobId : Id) : Nat := s.outbox.count (·.retryOf jobId)

def startRun (jobId : Id) (run : Option Nat) (s : Db) : Db :=
  { s with remote := { s.remote with
      builds := s.remote.builds ++ (run.map fun r => ⟨jobId, r, buildRetries s jobId⟩).toList } }

def expireBuildStatement (jobId : Id) (now : Time) : Stmt Db :=
  update Db.automationJobsT (fun _ j => j.id == jobId && (j.status == .queued || j.status == .dispatching))
    (fun _ j => { j with status := .expired, updatedAt := now })

def claimBuildStatement (jobId : Id) (now : Time) : Stmt Db :=
  update Db.automationJobsT (fun _ j => j.id == jobId && (j.status == .queued || j.status == .failed) &&
      j.nextAttemptAt.all (fun t => decide (t ≤ now)) && decide (j.attemptCount < 5))
    (fun _ j => { j with
      status := .dispatching, attemptCount := j.attemptCount + 1, updatedAt := now })

/-- `recordDispatchFailure`; `attemptCount` is the count the dispatch has read. -/
def recordDispatchFailureStatement (jobId : Id) (attemptCount : Nat) (now : Time) : Stmt Db :=
  let attempt := attemptCount + 1
  update Db.automationJobsT (fun _ j => j.id == jobId && j.status == .dispatching) (fun _ j => { j with
      status := if 5 ≤ attempt then .failed else .queued
      nextAttemptAt := if 5 ≤ attempt then none else some (now + min 60000 (2 ^ attempt * 1000))
      updatedAt := now })

/-- `providerDispatchResult`: GitHub names no run when it accepts one. -/
def dispatchedJobId (job : AutomationJob) (run : Nat) : ProviderJobId :=
  match job.provider with
  | .gitlabCi => .run run
  | .githubActions => .job job.id

def recordDispatchStatements (job : AutomationJob) (run : Nat) (e : DispatchEnv) : List (Stmt Db) :=
  [update Db.automationJobsT (fun _ j => j.id == job.id && j.status == .dispatching) (fun _ j => { j with
        status := .running, providerJobId := some (dispatchedJobId job run)
        runUrl := some e.runUrl, nextAttemptAt := none, updatedAt := e.now }),
    buildAuditStatement job.id "automation.authorization_consumed" fun j => j.status == .running]

def dispatchBuild (jobId : Id) (e : DispatchEnv) : Call BuildSite BuildReply := do
  let job ← Prog.query fun s => do
    let job ← s.automationJobs.get? jobId
    let _ ← s.sellableItems.get? job.sellableItemId
    some job
  match job with
  | none => Prog.throw automationJobNotFound
  | some job =>
    if job.status = .running ∨ job.status = .succeeded then
      return { id := job.id, status := job.status, duplicate := true }
    else if job.timeoutAt ≤ e.now then
      let _ ← Prog.commit (.expireBuild job.id) [expireBuildStatement job.id e.now]
      Prog.throw ⟨"automation_job_expired", 409, "Automation job expired"⟩
    else
      let claimed ← Prog.commit (.claimBuild job.id) [claimBuildStatement job.id e.now]
      if (claimed[0]?).getD 0 ≠ 1 then
        Prog.throw ⟨"automation_job_busy", 409, "Automation job is not dispatchable"⟩
      else
        liftExcept e.prepared
        Prog.effect (.requestBuild job.id e.response.run) (startRun job.id e.response.run)
        match e.response with
        | .unreachable _ =>
          let _ ← Prog.commit (.recordDispatchFailure job.id)
            [recordDispatchFailureStatement job.id job.attemptCount e.failedAt]
          Prog.throw ⟨"automation_provider_unreachable", 503, "Build provider is unreachable"⟩
        | .rejected _ =>
          let _ ← Prog.commit (.recordDispatchFailure job.id)
            [recordDispatchFailureStatement job.id job.attemptCount e.failedAt]
          Prog.throw ⟨"automation_provider_rejected", 502, "Build provider rejected the request"⟩
        | .accepted run readable =>
          if job.provider = .gitlabCi ∧ readable = false then
            Prog.throw ⟨"provider_response_invalid", 500, "Provider response is invalid"⟩
          else
            let _ ← Prog.commit (.recordDispatch job.id (dispatchedJobId job run))
              (recordDispatchStatements job run e)
            return { id := job.id, status := .running }

/-! ## Callbacks -/

inductive CallbackStatus where
  | running | succeeded | failed
  deriving DecidableEq

def CallbackStatus.job : CallbackStatus → JobStatus
  | .running => .running
  | .succeeded => .succeeded
  | .failed => .failed

def CallbackStatus.outcome : CallbackStatus → Option (OutboxType × OrderEventType)
  | .running => none
  | .succeeded => some (.automationSucceeded, .automationSucceeded)
  | .failed => some (.automationFailed, .automationFailed)

/-- `callbackSchema`. -/
structure AutomationCallback where
  jobId : Id
  status : CallbackStatus
  providerJobId : Option ProviderJobId := none
  runUrl : Option Nat := none

/-- `signed` is what the signature check answers, `artifactReady` whether a ready artifact was found. -/
structure CallbackEnv where
  signed : Except DomainError Unit
  artifactReady : Bool
  now : Time

/-- `assertProviderJobOwnership`. -/
def providerJobOwned (job : AutomationJob) (providerJobId : Option ProviderJobId) : Bool :=
  match providerJobId, job.providerJobId with
  | some named, some recorded =>
    (job.provider == .githubActions && recorded == .job job.id) || recorded == named
  | _, _ => true

def reportedJob (input : AutomationCallback) (now : Time) (j : AutomationJob) : AutomationJob :=
  { j with
    status := input.status.job, providerJobId := input.providerJobId.or j.providerJobId
    runUrl := input.runUrl.or j.runUrl, updatedAt := now }

def repeatedReportStatement (input : AutomationCallback) (now : Time) : Stmt Db :=
  update Db.automationJobsT (fun _ j => j.id == input.jobId && j.status == input.status.job)
    (fun _ j => reportedJob input now j)

def callbackStatements (input : AutomationCallback) (now : Time) : List (Stmt Db) :=
  [update Db.automationJobsT (fun _ j => j.id == input.jobId && (j.status == .dispatching || j.status == .running))
      (fun _ j => reportedJob input now j),
    insert Db.outboxT .doNothing fun s =>
      (s.automationJobs.rows.filter fun j => j.id == input.jobId && j.status == input.status.job).flatMap
        fun j => (input.status.outcome.map fun o =>
          { eventType := o.1, aggregateId := j.id
            idempotencyKey := .automationCallback j.id input.status.job }).toList,
    insert Db.eventsT .doNothing fun s =>
      (s.automationJobs.rows.filter fun j => j.id == input.jobId && j.status == input.status.job).flatMap
        fun j => (s.items.get? j.orderItemId).toList.flatMap fun oi =>
          (input.status.outcome.map fun o =>
            { actionEvent oi.orderId o.2 with
              id := some (.automation j.id input.status.job) }).toList]

def automationProviderJobMismatch : DomainError :=
  ⟨"automation_provider_job_mismatch", 409, "Build provider job does not match the dispatched run"⟩

/-- `processAutomationCallback`; `sender` is the provider's run that has sent the callback. -/
def processAutomationCallback (sender : ProviderRun) (input : AutomationCallback) (e : CallbackEnv) :
    Call BuildSite BuildReply := do
  let job ← Prog.query fun s => s.automationJobs.get? input.jobId
  match job with
  | none => Prog.throw automationJobNotFound
  | some job =>
    liftExcept e.signed
    if providerJobOwned job input.providerJobId = false then Prog.throw automationProviderJobMismatch
    else
      let site := BuildSite.automationCallback sender job.id input.providerJobId job.providerJobId
      if job.status = input.status.job then
        let _ ← Prog.commit (site [input.status.job]) [repeatedReportStatement input e.now]
        return { id := job.id, status := input.status.job, duplicate := true }
      else if input.status = .succeeded ∧ job.artifactRequired = true ∧ e.artifactReady = false then
        Prog.throw ⟨"automation_artifact_required", 409, "A successful automation run must have an uploaded artifact"⟩
      else
        let results ← Prog.commit (site [.dispatching, .running]) (callbackStatements input e.now)
        if (results[0]?).getD 0 = 1 then return { id := job.id, status := input.status.job }
        else Prog.throw (automationStatusConflict "Automation status cannot be changed")

/-! ## Maintenance -/

/-- The statements of `runMaintenance` on entitlements and build jobs. -/
def maintenanceStatements (now : Time) : List (Stmt Db) :=
  [update Db.entitlementsT (fun _ ce => ce.status == .active && ce.expiresAt.any fun t => decide (t ≤ now))
      (fun _ ce => { ce with status := .expired }),
    update Db.automationJobsT (fun _ j => j.status.live && decide (j.timeoutAt ≤ now))
      (fun _ j => { j with status := .expired, updatedAt := now })]

/-- The expiry of `runMaintenance`. -/
def runMaintenance (now : Time) : Call BuildSite Unit := do
  let _ ← Prog.commit .runMaintenance (maintenanceStatements now)
  return ()

/-! ## The build calls side by side -/

inductive BuildCall where
  | create (input : CreateBuildInput) (e : CreateBuildEnv)
  | cancel (jobId : Id) (orderId : Option Id) (now : Time)
  | retry (jobId : Id) (orderId : Option Id) (e : RetryEnv)
  | dispatch (jobId : Id) (e : DispatchEnv)
  | callback (sender : ProviderRun) (input : AutomationCallback) (e : CallbackEnv)
  | maintenance (now : Time)

def BuildCall.code : BuildCall → Call BuildSite Unit
  | .create input e => (createBuildJob input e).void
  | .cancel jobId orderId now => (cancelBuildJob jobId orderId now).void
  | .retry jobId orderId e => (retryBuildJob jobId orderId e).void
  | .dispatch jobId e => (dispatchBuild jobId e).void
  | .callback sender input e => (processAutomationCallback sender input e).void
  | .maintenance now => runMaintenance now

end Gmshop
