import GmshopEdge.Entitlements.Ledger
import GmshopEdge.Lib.Guarantee

/-!
# Build jobs

`createBuildJob` (`builds/server/jobs.ts`), `cancelBuildJob` and `retryBuildJob`
(`builds/server/job-actions.ts`), `dispatchBuild` (`builds/providers/github-actions.ts`),
`processAutomationCallback` (`builds/server/callback.ts`) and the expiry of the maintenance run.

What does not come from these tables is an argument: the clock, random ids, what the access check, the
input validation and the secrets make of a request, the product's status, what the provider answers.
The job's snapshot of the build method, its stored inputs, its failure code and its start and
completion times are left out.
-/

namespace Gmshop

open Sql Stmt

/-! ## Commit sites -/

/-- Where a batch on the build jobs is committed from, with what the call holds there. -/
inductive BuildSite where
  | createBuildJob (jobId : Id)
  | cancelBuildJob (jobId : Id)
  | retryBuildJob (jobId : Id) (status : JobStatus) (restored : Bool) (now : Time)
  | expireBuild (jobId : Id)
  | claimBuild (jobId : Id)
  | requestBuild (jobId : Id) (run : Option Nat)
  | recordDispatchFailure (jobId : Id)
  | recordDispatch (jobId : Id) (recorded : ProviderJobId)
  | automationCallback (sender : ProviderRun) (jobId : Id) (providerJobId : Option ProviderJobId)
      (recorded : Option ProviderJobId) (asked : List JobStatus)
  | runMaintenance
  deriving DecidableEq

/-- `status IN ('queued', 'dispatching', 'running')`. -/
def JobStatus.live (st : JobStatus) : Bool := st == .queued || st == .dispatching || st == .running

/-- `status IN ('failed', 'expired', 'cancelled')`. -/
def JobStatus.retryable (st : JobStatus) : Bool :=
  st == .failed || st == .expired || st == .cancelled

/-! ## Creating a job -/

structure BuildMethod where
  provider : BuildProvider
  artifactRequired : Bool

structure CreateBuildInput where
  entitlementId : Id
  idempotencyKey : Nat

/-- `order` is what `getStoreOrder` and the notification check answer, `method` the enabled method of
the item's current version, `inputs` what the validation of the inputs and the secrets answer. -/
structure CreateBuildEnv where
  order : Except DomainError Id
  method : Option BuildMethod
  inputs : Except DomainError Unit
  jobId : Id
  readAt : Time
  now : Time

structure BuildReply where
  id : Id
  status : JobStatus
  timeoutAt : Option Time := none
  duplicate : Bool := false

def automationEntitlementUnavailable (status : Nat) : DomainError :=
  ⟨"automation_entitlement_unavailable", status, "Build entitlement is unavailable"⟩
def automationCapacityUnavailable : DomainError :=
  ⟨"automation_capacity_unavailable", 409, "Build quota is exhausted"⟩
def automationJobNotFound : DomainError :=
  ⟨"automation_job_not_found", 404, "Automation job not found"⟩
def automationStatusConflict (message : String) : DomainError :=
  ⟨"automation_status_conflict", 409, message⟩

def buildDispatchWindowMs : Nat := 86400000

/-- The entitlement a build may use: of the order, active or exhausted, not expired. -/
def loadBuildContext (s : Db) (entitlementId orderId : Id) (now : Time) : Option CustomerEntitlement := do
  let ce ← s.entitlements.get? entitlementId
  let oi ← s.items.get? ce.orderItemId
  let item ← s.sellableItems.get? ce.sellableItemId
  if oi.orderId = orderId ∧ oi.deliveryComponentType = .automation ∧
      (ce.status = .active ∨ ce.status = .exhausted) ∧ (∀ t ∈ ce.expiresAt, now < t) ∧
      item.enabled = true then some ce
  else none

/-- `automation_jobs.idempotency_key = ?`. -/
def findBuildJob (s : Db) (idempotencyKey : Nat) : Option AutomationJob :=
  s.automationJobs.rows.find? fun j => j.idempotencyKey == idempotencyKey

def AutomationJob.replay (j : AutomationJob) : BuildReply :=
  { id := j.id, status := j.status, timeoutAt := some j.timeoutAt, duplicate := true }

/-- The entitlement can pay for one more build: `WHERE` of the job's INSERT. -/
def CustomerEntitlement.buildable (now : Time) (ce : CustomerEntitlement) : Bool :=
  (ce.status == .active || ce.status == .exhausted) && ce.expiresAt.all (fun t => decide (now < t)) &&
    ce.usageLimit.all fun l => decide (ce.usageCount < l)

/-- The entitlement after one more use; `otherwise` is its status while uses are left. -/
def CustomerEntitlement.consume (otherwise : EntitlementStatus) (ce : CustomerEntitlement) : CustomerEntitlement :=
  { ce with
    usageCount := ce.usageCount + 1
    status := if ce.usageLimit.any fun l => decide (l ≤ ce.usageCount + 1) then .exhausted
      else otherwise }

/-- `buildAuditStatement`, and `actionAuditStatement` where no change count matters. -/
def buildAuditStatement (jobId : Id) (action : String) (p : AutomationJob → Bool) : Stmt Db :=
  insert Db.auditLogsT .abort fun s =>
    (s.automationJobs.rows.filter fun j => j.id == jobId && p j).map fun j =>
      { action := action, targetId := j.id }

/-- The batch of `createBuildJob`. -/
def createBuildStatements (input : CreateBuildInput) (context : CustomerEntitlement)
    (method : BuildMethod) (e : CreateBuildEnv) : List (Stmt Db) :=
  [insert Db.automationJobsT .abort fun s =>
      (s.entitlements.rows.filter fun ce => ce.id == context.id && ce.buildable e.now).map fun ce =>
        { id := e.jobId, entitlementId := ce.id, orderItemId := ce.orderItemId
          sellableItemId := context.sellableItemId, provider := method.provider
          artifactRequired := method.artifactRequired, idempotencyKey := input.idempotencyKey
          nextAttemptAt := some e.now, timeoutAt := e.now + buildDispatchWindowMs
          updatedAt := e.now },
    update Db.entitlementsT (fun s ce => ce.id == context.id && s.automationJobs.exist fun j => j.id == e.jobId)
      (fun _ ce => ce.consume .active),
    insert Db.usageEventsT .abort fun s =>
      (s.automationJobs.rows.filter fun j => j.id == e.jobId).map fun _ =>
        { entitlementId := context.id, eventType := .consumed
          idempotencyKey := .automation e.jobId },
    insert Db.outboxT .abort fun s =>
      (s.automationJobs.rows.filter fun j => j.id == e.jobId).map fun j =>
        { eventType := .automationRequested, aggregateId := j.id
          idempotencyKey := .automationRequested j.id },
    buildAuditStatement e.jobId "automation.job_created" fun _ => true]

def createBuildJob (input : CreateBuildInput) (e : CreateBuildEnv) : Call BuildSite BuildReply := do
  let existing ← Prog.query fun s => findBuildJob s input.idempotencyKey
  match existing with
  | some job => return job.replay
  | none =>
    let orderId ← liftExcept e.order
    let context ← Prog.query fun s => loadBuildContext s input.entitlementId orderId e.readAt
    match context, e.method with
    | some context, some method =>
      liftExcept e.inputs
      let result : Sum AutomationJob (List Nat) ← Prog.tryCatch (do
        let results ← Prog.commit (.createBuildJob e.jobId) (createBuildStatements input context method e)
        return .inr results)
        fun err => do
          let replay ← Prog.query fun s => findBuildJob s input.idempotencyKey
          match replay with
          | some job => return .inl job
          | none => Prog.fail err
      match result with
      | .inl job => return job.replay
      | .inr results =>
        if (results[0]?).getD 0 = 1 then
          return { id := e.jobId, status := .queued, timeoutAt := some (e.now + buildDispatchWindowMs) }
        else Prog.throw automationCapacityUnavailable
    | _, _ => Prog.throw (automationEntitlementUnavailable 404)

/-! ## Cancelling and retrying -/

/-- `ActionJob`; the product's status is an argument of the retry. -/
structure ActionJob where
  job : AutomationJob
  orderId : Id
  configEnabled : Bool
  entitlementStatus : EntitlementStatus
  entitlementExpiresAt : Option Time

/-- `loadActionJob`; a customer names the order, an admin does not. -/
def loadActionJob (s : Db) (jobId : Id) (orderId : Option Id) : Option ActionJob := do
  let job ← s.automationJobs.get? jobId
  let item ← s.sellableItems.get? job.sellableItemId
  let ce ← s.entitlements.get? job.entitlementId
  let oi ← s.items.get? job.orderItemId
  if ∀ i ∈ orderId, oi.orderId = i then
    some
      { job := job, orderId := oi.orderId, configEnabled := item.enabled
        entitlementStatus := ce.status, entitlementExpiresAt := ce.expiresAt }
  else none

def actionEvent (orderId : Id) (eventType : OrderEventType) : ShopOrderEvent :=
  { orderId := orderId, eventType := eventType, fromStatus := none, toStatus := none
    orderVersion := none }

/-- The job row once it is cancelled; only a queued job gives its use back. -/
def cancelledJob (now : Time) (j : AutomationJob) : AutomationJob :=
  { j with
    status := .cancelled
    usageRestoredAt := if j.status = .queued then some now else j.usageRestoredAt
    nextAttemptAt := none, updatedAt := now }

def CustomerEntitlement.restore (now : Time) (ce : CustomerEntitlement) : CustomerEntitlement :=
  { ce with
    usageCount := ce.usageCount - 1
    status := if ce.status = .exhausted ∧ (∀ t ∈ ce.expiresAt, now < t) ∧
        (∀ l ∈ ce.accessLimit, ce.accessCount < l) ∧ ∀ l ∈ ce.usageLimit, ce.usageCount - 1 < l
      then .active else ce.status }

/-- The batch of `cancelBuildJob`: three statements pass the change count of the first on to the
entitlement's. -/
def cancelBuildStatements (job : ActionJob) (now : Time) : List (Stmt Db) :=
  [update Db.automationJobsT (fun _ j => j.id == job.job.id && j.status.live) (fun _ j => cancelledJob now j),
    onChanges fun changes => insert Db.eventsT .abort fun s =>
      (s.automationJobs.rows.filter fun j => j.id == job.job.id && j.status == .cancelled &&
        j.updatedAt == now && changes == 1).map fun _ => actionEvent job.orderId .automationCancelled,
    onChanges fun changes => buildAuditStatement job.job.id "automation_job.cancelled" fun j =>
      j.status == .cancelled && j.updatedAt == now && changes == 1,
    onChanges fun changes => update Db.entitlementsT
      (fun s ce => ce.id == job.job.entitlementId && decide (0 < ce.usageCount) &&
        (s.automationJobs.exist fun j => j.id == job.job.id && j.status == .cancelled &&
          j.usageRestoredAt == some now) && changes == 1)
      (fun _ ce => ce.restore now),
    insert Db.usageEventsT .abort fun s =>
      (s.automationJobs.rows.filter fun j => j.id == job.job.id && j.usageRestoredAt == some now).map
        fun _ => { entitlementId := job.job.entitlementId, eventType := .restored
                   idempotencyKey := .automationRestore job.job.id now }]

def cancelBuildJob (jobId : Id) (orderId : Option Id) (now : Time) : Call BuildSite BuildReply := do
  let job ← Prog.query fun s => loadActionJob s jobId orderId
  match job with
  | none => Prog.throw automationJobNotFound
  | some job =>
    let invalid : DomainError :=
      ⟨"automation_cancel_invalid", 409, "Automation job cannot be cancelled"⟩
    if job.job.status.live = false then Prog.throw invalid
    else
      let results ← Prog.commit (.cancelBuildJob job.job.id) (cancelBuildStatements job now)
      if (results[0]?).getD 0 = 1 then return { id := job.job.id, status := .cancelled }
      else Prog.throw invalid

structure RetryEnv where
  productActive : Bool
  checkedAt : Time
  now : Time

def retriedJob (now : Time) (j : AutomationJob) : AutomationJob :=
  { j with
    status := .queued, attemptCount := 0, nextAttemptAt := some now
    timeoutAt := now + 86400000, providerJobId := none, runUrl := none
    usageRestoredAt := none, updatedAt := now }

def queuedAt (now : Time) (j : AutomationJob) : Bool := j.status == .queued && j.updatedAt == now

/-- The entitlement can take a use back: `WHERE` of the retry's statement. -/
def CustomerEntitlement.reconsumable (now : Time) (ce : CustomerEntitlement) : Bool :=
  ce.status == .active && ce.expiresAt.all (fun t => decide (now < t)) &&
    ce.usageLimit.all fun l => decide (ce.usageCount < l)

/-- The statement of a retry that takes back the use the cancellation restored. -/
def reconsumeStatement (entitlementId : Id) (now : Time) : Stmt Db :=
  update Db.entitlementsT (fun _ ce => ce.id == entitlementId && ce.reconsumable now)
    (fun _ ce => ce.consume ce.status)

def retryTailStatements (job : ActionJob) (now : Time) : List (Stmt Db) :=
  [insert Db.outboxT .abort fun s =>
      (s.automationJobs.rows.filter fun j => j.id == job.job.id && queuedAt now j).map fun j =>
        { eventType := .automationRequested, aggregateId := j.id
          idempotencyKey := .automationRetry job.job.id now },
    insert Db.eventsT .abort fun s =>
      (s.automationJobs.rows.filter fun j => j.id == job.job.id && queuedAt now j).map
        fun _ => actionEvent job.orderId .automationRetried,
    buildAuditStatement job.job.id "automation_job.retried" (queuedAt now)]

/-- The batch of `retryBuildJob`; `restored` is the flag as the call read it. -/
def retryBuildStatements (job : ActionJob) (now : Time) : List (Stmt Db) :=
  if job.job.usageRestoredAt.isSome then [reconsumeStatement job.job.entitlementId now,
      onChanges fun changes => update Db.automationJobsT
        (fun _ j => j.id == job.job.id && j.status == job.job.status && changes == 1)
        (fun _ j => retriedJob now j),
      insert Db.usageEventsT .abort fun s =>
        (s.automationJobs.rows.filter fun j => j.id == job.job.id && queuedAt now j).map fun _ =>
          { entitlementId := job.job.entitlementId, eventType := .consumed
            idempotencyKey := .automationReconsume job.job.id now }] ++
      retryTailStatements job now
  else update Db.automationJobsT (fun _ j => j.id == job.job.id && j.status == job.job.status)
      (fun _ j => retriedJob now j) :: retryTailStatements job now

def retryBuildJob (jobId : Id) (orderId : Option Id) (e : RetryEnv) : Call BuildSite BuildReply := do
  let job ← Prog.query fun s => loadActionJob s jobId orderId
  match job with
  | none => Prog.throw automationJobNotFound
  | some job =>
    if job.job.status.retryable = false then
      Prog.throw ⟨"automation_retry_invalid", 409, "Automation job cannot be retried"⟩
    else if job.entitlementStatus ≠ .active ∨ (∃ t ∈ job.entitlementExpiresAt, t ≤ e.checkedAt) ∨
        e.productActive = false ∨ job.configEnabled = false then
      Prog.throw (automationEntitlementUnavailable 409)
    else
      let restored := job.job.usageRestoredAt.isSome
      let results ← Prog.commit (.retryBuildJob job.job.id job.job.status restored e.now)
        (retryBuildStatements job e.now)
      if restored ∧ (results[0]?).getD 0 ≠ 1 then Prog.throw automationCapacityUnavailable
      else if (results[if restored then 1 else 0]?).getD 0 ≠ 1 then
        Prog.throw (automationStatusConflict "Automation job changed")
      else return { id := job.job.id, status := .queued }

end Gmshop
