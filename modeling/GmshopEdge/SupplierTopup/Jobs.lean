import GmshopEdge.Db.Schema

/-!
# Supplier top-ups

The jobs of `supplier_topup_jobs` (`supplier-topup/server/topup.ts`): the owner's choice of an amount queues
a `create` job, a runner claims it, places the order and reports it, and each "paid" button queues a
`collect` job for that order. The look-ups of withdrawals (`agent-program/server/withdrawal-alerts.ts`)
share the table.

The messages, the buttons and the result texts are left out. The state also remembers which reports have
changed a job's status; no statement reads that, nor the number of times a job was claimed.
-/

namespace Gmshop

open Sql Stmt Prog

/-! ## Tables -/

inductive TopUpStep where
  | create
  | collect
  | withdrawalVerify
  deriving DecidableEq

inductive TopUpStatus where
  | queued
  | running
  | awaitingPayment
  | abandoned
  | failed
  | uncertain
  | unpaid
  | done
  | paid
  | unmatched
  deriving DecidableEq

/-- What the payment codes are for: `reference` and `amount_cny` of each. -/
structure TopUpOrder where
  channel : String
  totalCny : String
  orders : List (String × String)
  deriving DecidableEq

/-- The button of an offer, the "paid" button of a prompt, or a withdrawal's look-up. -/
inductive ActionKey where
  | offer (offerId : Id)
  | paid (promptId : Id)
  | verify (key : String)
  deriving DecidableEq

structure TopUpJob where
  id : Id
  topupId : Id
  step : TopUpStep
  supplierId : String
  amountCny : Nat
  status : TopUpStatus
  actionKey : ActionKey
  order : Option TopUpOrder
  claimedAt : Option Time
  createdAt : Time
  claims : Nat

instance : KeyedRow TopUpJob where
  clash a b := a.id == b.id || a.actionKey == b.actionKey
  key := TopUpJob.id
  clash_of_key a b h := by simp [h]

/-- The jobs, and the reports `(job, report)` that changed a status. -/
structure TopUps where
  jobs : Table TopUpJob
  reported : List (Id × Nat)

def TopUps.jobsT : TableRef TopUps TopUpJob := ⟨TopUps.jobs, fun s t => { s with jobs := t }, fun _ _ => rfl⟩

inductive TopUpSite where
  | approveOffer (supplierId : String) (now : Time)
  | approvePaid (topupId : Id)
  | rejectPaid (topupId : Id)
  | claim
  | finish (jobId : Id) (status : TopUpStatus)
  | setTopUp (topupId : Id) (status : TopUpStatus)
  | verify (jobId : Id)

abbrev TopUpProg := Prog TopUps TopUpSite DomainError

/-! ## Offers -/

def supplierTopUpAmounts : List Nat := [50, 100, 200]

def supportedTopUpSuppliers : List String := ["pomoai", "xingwan", "icodeeasy"]

def openTopUpMs : Nat := 24 * 3600000

/-- A `create` job whose order may still be placed or paid. -/
def TopUpJob.isOpen (j : TopUpJob) : Bool :=
  j.step == .create && (j.status == .queued || j.status == .running || j.status == .awaitingPayment)

def openTopUp (s : TopUps) (supplierId : String) (now : Time) : Option TopUpJob :=
  (s.jobs.rows.filter fun j => j.supplierId == supplierId && j.isOpen &&
    decide (now < j.createdAt + openTopUpMs)).maxOn? (·.createdAt)

def offerSupplierTopUp (supplierId : String) (now : Time) : TopUpProg Bool :=
  if supplierId ∉ supportedTopUpSuppliers then
    throw ⟨"supplier_topup_unsupported", 422, "Supplier not supported"⟩
  else do
    let open_ ← query fun s => openTopUp s supplierId now
    .done open_.isNone

def describeOpen (job : TopUpJob) : String :=
  if job.status = .awaitingPayment then "已有一笔 ¥" ++ toString job.amountCny ++ " 的付款码在等付款：付完点那条消息的「充值完成」"
  else "已有一笔 ¥" ++ toString job.amountCny ++ " 的充值正在下单"

def approveSupplierTopUpOffer (id offerId : Id) (supplierId : String) (choice : Nat) (now : Time) : TopUpProg Unit :=
  match supplierTopUpAmounts[choice]? with
  | none => throw ⟨"supplier_topup_bad_choice", 400, "金额选项无效"⟩
  | some amount => do
    let open_ ← query fun s => openTopUp s supplierId now
    match open_ with
    | some job => throw ⟨"supplier_topup_open", 409, describeOpen job⟩
    | none => do
      let _ ← commit (.approveOffer supplierId now) [insert TopUps.jobsT .abort fun _ =>
        [⟨id, id, .create, supplierId, amount, .queued, .offer offerId, none, none, now, 0⟩]]
      .done ()

/-! ## Payments -/

/-- A `collect` job that is under way or has an outcome that may be money. -/
def TopUpJob.isBusy (j : TopUpJob) : Bool :=
  j.step == .collect && (j.status == .queued || j.status == .running || j.status == .uncertain || j.status == .done)

def busyCollect (s : TopUps) (topupId : Id) : Bool := s.jobs.exist fun j => j.topupId == topupId && j.isBusy

def approveSupplierTopUpPaid (id promptId topupId : Id) (now : Time) : TopUpProg Unit := do
  let topUp ← query fun s => (s.jobs.get? topupId).filter fun j => j.status == .awaitingPayment
  match topUp with
  | none => throw ⟨"supplier_topup_closed", 409, "这笔充值已经结束"⟩
  | some topUp => do
    let busy ← query fun s => busyCollect s topUp.id
    if busy then throw ⟨"supplier_topup_busy", 409, "这笔充值已经在核验或已入账"⟩
    else do
      let _ ← commit (.approvePaid topUp.id) [insert TopUps.jobsT .abort fun _ =>
        [⟨id, topUp.id, .collect, topUp.supplierId, topUp.amountCny, .queued, .paid promptId, topUp.order,
          none, now, 0⟩]]
      .done ()

def rejectSupplierTopUpPaid (topupId : Id) : TopUpProg Unit := do
  let _ ← commit (.rejectPaid topupId)
    [update TopUps.jobsT (fun _ j => j.id == topupId && j.status == .awaitingPayment)
      fun _ j => { j with status := .abandoned }]
  .done ()

/-- `insertVerifyJob`: a look-up of a withdrawal's transfer. -/
def insertVerifyJob (id : Id) (key : String) (now : Time) : TopUpProg Unit := do
  let _ ← commit (.verify id) [insert TopUps.jobsT .abort fun _ =>
    [⟨id, id, .withdrawalVerify, "alipay", 0, .queued, .verify key, none, none, now, 0⟩]]
  .done ()

/-! ## The runner -/

def TopUpJob.claimed (now : Time) (j : TopUpJob) : TopUpJob :=
  { j with status := .running, claimedAt := some now, claims := j.claims + 1 }

def oldestQueued (s : TopUps) : Option TopUpJob :=
  (s.jobs.rows.filter fun j => j.status == .queued).minOn? (·.createdAt)

/-- `UPDATE … RETURNING`: the runner is told the job that it claimed. -/
def claimSupplierTopUpJob (now : Time) : TopUpProg (Option TopUpJob) := do
  let claimed ← .act (some .claim) (Option Id) (fun s => match update TopUps.jobsT
        (fun s j => (oldestQueued s).any (·.id == j.id) && j.status == .queued)
        (fun _ => TopUpJob.claimed now) 0 s with
      | .ok (_, t) => ((oldestQueued s).map (·.id), t)
      | .error _ => (none, s)) .done
  match claimed with
  | none => .done none
  | some id => query fun s => s.jobs.get? id

inductive TopUpOutcome where
  | orderCreated (order : TopUpOrder)
  | collected
  | unpaid
  /-- Whether every withdrawal of the job was marked as paid. -/
  | withdrawalMatched (allPaid : Bool)
  | withdrawalUnmatched
  | failed
  | uncertain
  deriving DecidableEq

def TopUpOutcome.text : TopUpOutcome → String
  | .orderCreated _ => "order_created"
  | .collected => "collected"
  | .unpaid => "unpaid"
  | .withdrawalMatched _ => "withdrawal_matched"
  | .withdrawalUnmatched => "withdrawal_unmatched"
  | .failed => "failed"
  | .uncertain => "uncertain"

def TopUpStep.text : TopUpStep → String
  | .create => "create"
  | .collect => "collect"
  | .withdrawalVerify => "withdrawal_verify"

def noteReport (jobId : Id) (report : Nat) (changes : Nat → TopUps → Bool) : Stmt TopUps := fun c s =>
  .ok (c, if changes c s then { s with reported := (jobId, report) :: s.reported } else s)

def finishJob (jobId : Id) (report : Nat) (status : TopUpStatus) (order : Option TopUpOrder) : TopUpProg (List Nat) :=
  commit (.finish jobId status) [update TopUps.jobsT (fun _ j => j.id == jobId && j.status == .running)
      (fun _ j => { j with status := status, order := order <|> j.order }),
     noteReport jobId report fun c _ => c != 0]

/-- The `create` job of a top-up takes the outcome of its `collect` job. -/
def setTopUp (jobId topupId : Id) (report : Nat) (status : TopUpStatus) : TopUpProg (List Nat) :=
  commit (.setTopUp topupId status) [noteReport jobId report (fun _ s =>
        s.jobs.exist fun j => j.id == topupId && j.step == .create && j.status != status),
     update TopUps.jobsT (fun _ j => j.id == topupId && j.step == .create) fun _ j => { j with status := status }]

def badOutcome (message : String) : DomainError := ⟨"supplier_topup_bad_outcome", 400, message⟩

/-- What a report does to the status of its job and, for some, of the top-up. -/
def recordOutcome (job : TopUpJob) (report : Nat) (outcome : TopUpOutcome) : TopUpProg Unit :=
  match job.step, outcome with
  | .create, .orderCreated order => (finishJob job.id report .awaitingPayment (some order)).void
  | .create, .failed => (finishJob job.id report .failed none).void
  | .create, .uncertain => (finishJob job.id report .uncertain none).void
  | .collect, .collected => do
    let _ ← finishJob job.id report .done none
    (setTopUp job.id job.topupId report .paid).void
  | .collect, .unpaid => (finishJob job.id report .unpaid none).void
  | .collect, .failed => (finishJob job.id report .failed none).void
  | .collect, .uncertain => do
    let _ ← finishJob job.id report .uncertain none
    (setTopUp job.id job.topupId report .uncertain).void
  | .withdrawalVerify, .withdrawalMatched allPaid =>
    (finishJob job.id report (if allPaid then .done else .unmatched) none).void
  | .withdrawalVerify, .withdrawalUnmatched => (finishJob job.id report .unmatched none).void
  | .withdrawalVerify, .failed => (finishJob job.id report .unmatched none).void
  | .withdrawalVerify, .uncertain => (finishJob job.id report .unmatched none).void
  | .withdrawalVerify, outcome => throw (badOutcome outcome.text)
  | step, outcome => throw (badOutcome ("Outcome " ++ outcome.text ++ " does not fit a " ++ step.text ++ " job"))

/-- The runner's report; a job that is not running has been reported (`duplicate`). -/
def recordSupplierTopUpResult (report : Nat) (jobId : Id) (outcome : TopUpOutcome) :
    TopUpProg (Option TopUpStatus) := do
  let job ← query fun s => s.jobs.get? jobId
  match job with
  | none => throw ⟨"supplier_topup_job_missing", 404, "No job"⟩
  | some job =>
    if job.status ≠ .running then .done (some job.status)
    else do
      recordOutcome job report outcome
      .done none

/-- The calls, with what their callers pass; `report` names a report. -/
inductive TopUpCall where
  | offer (supplierId : String) (now : Time)
  | approveOffer (id offerId : Id) (supplierId : String) (choice : Nat) (now : Time)
  | approvePaid (id promptId topupId : Id) (now : Time)
  | rejectPaid (topupId : Id)
  | verify (id : Id) (key : String) (now : Time)
  | claim (now : Time)
  | report (report : Nat) (jobId : Id) (outcome : TopUpOutcome)

def TopUpCall.code : TopUpCall → TopUpProg Unit
  | .offer supplierId now => (offerSupplierTopUp supplierId now).void
  | .approveOffer id offerId supplierId choice now => approveSupplierTopUpOffer id offerId supplierId choice now
  | .approvePaid id promptId topupId now => approveSupplierTopUpPaid id promptId topupId now
  | .rejectPaid topupId => rejectSupplierTopUpPaid topupId
  | .verify id key now => insertVerifyJob id key now
  | .claim now => (claimSupplierTopUpJob now).void
  | .report name jobId outcome => (recordSupplierTopUpResult name jobId outcome).void

end Gmshop
