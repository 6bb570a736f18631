import GmshopEdge.SupplierTopup.Jobs

/-!
# Withdrawals

The look-ups of withdrawals in Alipay (`agent-program/server/withdrawal-alerts.ts`). The owner's "paid" button
queues a job with the withdrawals of the account and the trade numbers used so far; a runner claims it, looks the
transfer up and reports it, and the partner program is asked to mark the reported withdrawals as paid.

* The withdrawals live at the partner, whose answers take the place of reads and whose marks are steps of their own.
* Amounts are in cents; an account and a trade number are the trimmed texts.
* Messages, prompts for trade numbers, labels and result texts are left out.

The state also remembers which withdrawal was marked with which trade number; nothing reads that.
-/

namespace Gmshop

open Sql Stmt Prog

/-! ## Tables -/

inductive WithdrawalStatus where
  | pending
  | paid
  | rejected
  deriving DecidableEq

/-- Who marks a withdrawal: `telegram:auto-alipay` or the owner. -/
inductive Operator where
  | autoAlipay
  | owner
  deriving DecidableEq

structure Withdrawal where
  id : Id
  amount : Nat
  account : String
  status : WithdrawalStatus := .pending
  alipayTradeNo : Option String := none
  operator : Option Operator := none

instance : KeyedRow Withdrawal where
  clash a b := a.id == b.id
  key := Withdrawal.id
  clash_of_key a b h := by simp [h]

structure VerifyItem where
  id : Id
  amount : Nat
  account : String

def verifyItem (w : Withdrawal) : VerifyItem := ⟨w.id, w.amount, w.account⟩

/-- A `withdrawal_verify` row of `supplier_topup_jobs`, with what its `order_json` holds. -/
structure VerifyJob where
  id : Id
  actionKey : Id × String
  status : TopUpStatus
  target : VerifyItem
  group : List VerifyItem
  usedTradeNos : List String
  batchKey : Option String
  createdAt : Time

instance : KeyedRow VerifyJob where
  clash a b := a.id == b.id || a.actionKey == b.actionKey
  key := VerifyJob.id
  clash_of_key a b h := by simp [h]

structure Payouts where
  withdrawals : Table Withdrawal
  jobs : Table VerifyJob
  marks : List (Id × String)

def Payouts.withdrawalsT : TableRef Payouts Withdrawal :=
  ⟨Payouts.withdrawals, fun s t => { s with withdrawals := t }, fun _ _ => rfl⟩

def Payouts.jobsT : TableRef Payouts VerifyJob := ⟨Payouts.jobs, fun s t => { s with jobs := t }, fun _ _ => rfl⟩

structure AlipayTransfer where
  tradeNo : String
  amount : Nat

/-- Where a call writes; an automatic mark with the transfer, the trade numbers that its job lists, and the
withdrawals of the report. -/
inductive PayoutSite where
  | queue
  | claim
  | markPaid (transfer : AlipayTransfer) (usedTradeNos : List String) (ids : List Id)
  | markByOwner
  | finish
  | partner

abbrev PayoutProg := Prog Payouts PayoutSite DomainError

/-! ## The partner program -/

/-- A pending withdrawal is marked; one that has the trade number already is confirmed again. -/
def markPaid (site : PayoutSite) (id : Id) (tradeNo : String) (operator : Operator) (lost : Bool) : PayoutProg Bool :=
  .act (some site) Bool (fun s => match update Payouts.withdrawalsT (fun _ w => w.id == id && w.status == .pending)
        (fun _ w => { w with status := .paid, alipayTradeNo := some tradeNo, operator := some operator }) 0 s with
      | .ok (n, t) =>
        if n = 0 then
          (!lost && s.withdrawals.exist fun w => w.id == id && w.status == .paid && w.alipayTradeNo == some tradeNo, s)
        else (!lost, { t with marks := (id, tradeNo) :: t.marks })
      | .error _ => (false, s)) .done

def requestWithdrawal (id : Id) (amount : Nat) (account : String) : PayoutProg Unit :=
  (commit .partner [insert Payouts.withdrawalsT .doNothing fun _ =>
    [{ id := id, amount := amount, account := account }]]).void

def rejectWithdrawal (id : Id) : PayoutProg Unit :=
  (commit .partner [update Payouts.withdrawalsT (fun _ w => w.id == id && w.status == .pending)
    fun _ w => { w with status := .rejected }]).void

def markWithdrawalPaidFromTelegram (withdrawalId : Id) (tradeNo : Option String) (lost : Bool) : PayoutProg Unit :=
  match tradeNo with
  | none => throw ⟨"withdrawal_trade_no_missing", 400, "缺少支付宝订单号"⟩
  | some tradeNo => do
    let marked ← markPaid .markByOwner withdrawalId tradeNo .owner lost
    if marked then .done ()
    else throw ⟨"withdrawal_mark_paid_failed", 502, "代理站没有确认（可能已用别的订单号标记过）"⟩

/-! ## Queueing -/

/-- `[...new Set(all.map((w) => w.alipay_trade_no.trim()).filter(Boolean))]`. -/
def usedTradeNos (all : List Withdrawal) : List String := (all.filterMap (·.alipayTradeNo)).eraseDups

def Withdrawals.insertVerifyJob (jobId : Id) (all : List Withdrawal) (target : Withdrawal) (actionKey : Id × String)
    (batchKey : Option String) (only : Option (List Withdrawal)) (now : Time) : PayoutProg Unit :=
  let group := only.getD (all.filter fun w => w.status == .pending && w.account == target.account)
  (commit .queue [insert Payouts.jobsT .abort fun _ =>
    [⟨jobId, actionKey, .queued, verifyItem target, group.map verifyItem, usedTradeNos all, batchKey, now⟩]]).void

def queueWithdrawalVerify (jobId withdrawalId : Id) (requestKey : Option String) (now : Time) : PayoutProg Unit := do
  let all ← query fun s => s.withdrawals.rows
  match all.find? fun w => w.id == withdrawalId with
  | none => throw ⟨"withdrawal_not_pending", 409, "这笔提现已经不是待打款"⟩
  | some target =>
    if target.status ≠ .pending then throw ⟨"withdrawal_not_pending", 409, "这笔提现已经不是待打款"⟩
    else Withdrawals.insertVerifyJob jobId all target (target.id, requestKey.getD "legacy") none none now

/-- The pending withdrawals by account, in the order of their first ones. -/
def byAccount (pending : List Withdrawal) : List (List Withdrawal) :=
  ((pending.map (·.account)).eraseDups).map fun account => pending.filter (·.account == account)

def insertGroups (jobId : Nat → Id) (all : List Withdrawal) (requestKey : String) (now : Time) :
    List (List Withdrawal) → PayoutProg Unit
  | [] => .done ()
  | [] :: groups => insertGroups jobId all requestKey now groups
  | (target :: rest) :: groups => do
    Withdrawals.insertVerifyJob (jobId groups.length) all target (target.id, requestKey) (some requestKey)
      (some (target :: rest)) now
    insertGroups jobId all requestKey now groups

def queueWithdrawalBatchVerify (jobId : Nat → Id) (withdrawalIds : List Id) (requestKey : String) (now : Time) :
    PayoutProg Unit := do
  let all ← query fun s => s.withdrawals.rows
  let pending := withdrawalIds.filterMap fun id => all.find? fun w => w.id == id && w.status == .pending
  if pending = [] then throw ⟨"withdrawal_not_pending", 409, "这些提现都已经不是待打款"⟩
  else insertGroups jobId all requestKey now (byAccount pending)

/-! ## The runner -/

def claimVerifyJob : PayoutProg Unit :=
  (commit .claim [update Payouts.jobsT
    (fun s j => (((s.jobs.rows.filter fun j => j.status == .queued).minOn? (·.createdAt)).any (·.id == j.id)) &&
      j.status == .queued)
    fun _ j => { j with status := .running }]).void

inductive VerifyReport where
  | matched (transfer : AlipayTransfer) (withdrawalIds : List Id)
  /-- `withdrawal_unmatched`, `failed` or `uncertain` -/
  | unmatched

/-- `new Map(items.map((w) => [w.id, w.amount])).get(id)`: the last of the items counts. -/
def amountIn (items : List VerifyItem) (id : Id) : Option Nat :=
  ((items.filter fun item => item.id == id).getLast?).map (·.amount)

def amountsSum (items : List VerifyItem) (ids : List Id) : Option Nat :=
  ids.foldr (fun id sum => (amountIn items id).bind fun amount => sum.map (amount + ·)) (some 0)

def markAll (site : PayoutSite) (tradeNo : String) (lost : Id → Bool) : List Id → PayoutProg (List Id)
  | [] => .done []
  | id :: ids => do
    let marked ← markPaid site id tradeNo .autoAlipay (lost id)
    let paid ← markAll site tradeNo lost ids
    .done (if marked then id :: paid else paid)

def finishVerifyJob (jobId : Id) (status : TopUpStatus) : PayoutProg Unit :=
  (commit .finish [update Payouts.jobsT (fun _ j => j.id == jobId && j.status == .running)
    fun _ j => { j with status := status }]).void

/-- Whether the report is about withdrawals of the job, the target among them, and about their sum. -/
def VerifyJob.accepts (job : VerifyJob) (transfer : AlipayTransfer) (ids : List Id) : Bool :=
  let items := job.target :: job.group
  ids ≠ [] && ids.all (fun id => items.any (·.id == id)) && ids.contains job.target.id &&
    amountsSum items ids == some transfer.amount

/-- The withdrawals that were confirmed as paid, and whether something is left to say about the others; `lost` says
which of the partner's answers do not arrive. -/
def markReported (job : VerifyJob) (report : VerifyReport) (lost : Id → Bool) : PayoutProg (List Id × Bool) :=
  match report with
  | .unmatched => .done ([], true)
  | .matched transfer withdrawalIds =>
    let ids := withdrawalIds.eraseDups
    if job.accepts transfer ids then do
      let paid ← markAll (.markPaid transfer job.usedTradeNos ids) transfer.tradeNo lost ids
      .done (paid, paid.length != ids.length)
    else .done ([], true)

def recordWithdrawalVerifyResult (job : VerifyJob) (report : VerifyReport) (lost : Id → Bool) :
    PayoutProg (List Id) := do
  let (paid, reason) ← markReported job report lost
  let left := (job.target :: job.group).filter fun item => !paid.contains item.id
  let status := if job.batchKey.isSome then (if left = [] then TopUpStatus.done else .unmatched)
    else if paid ≠ [] ∧ reason = false then .done else .unmatched
  finishVerifyJob job.id status
  .done paid

/-- `recordSupplierTopUpResult` for a withdrawal's job; `none` for a job that is not running. -/
def recordVerifyReport (jobId : Id) (report : VerifyReport) (lost : Id → Bool) : PayoutProg (Option (List Id)) := do
  let job ← query fun s => s.jobs.get? jobId
  match job with
  | none => throw ⟨"supplier_topup_job_missing", 404, "No job"⟩
  | some job =>
    if job.status ≠ .running then .done none
    else do
      let paid ← recordWithdrawalVerifyResult job report lost
      .done (some paid)

/-! ## Calls -/

inductive PayoutCall where
  | request (id : Id) (amount : Nat) (account : String)
  | reject (id : Id)
  | byOwner (withdrawalId : Id) (tradeNo : Option String) (lost : Bool)
  | verify (jobId withdrawalId : Id) (requestKey : Option String) (now : Time)
  | verifyBatch (jobId : Nat → Id) (withdrawalIds : List Id) (requestKey : String) (now : Time)
  | claim
  | report (jobId : Id) (body : VerifyReport) (lost : Id → Bool)

def PayoutCall.code : PayoutCall → PayoutProg Unit
  | .request id amount account => requestWithdrawal id amount account
  | .reject id => rejectWithdrawal id
  | .byOwner withdrawalId tradeNo lost => markWithdrawalPaidFromTelegram withdrawalId tradeNo lost
  | .verify jobId withdrawalId requestKey now => queueWithdrawalVerify jobId withdrawalId requestKey now
  | .verifyBatch jobId withdrawalIds requestKey now => queueWithdrawalBatchVerify jobId withdrawalIds requestKey now
  | .claim => claimVerifyJob
  | .report jobId body lost => (recordVerifyReport jobId body lost).void

end Gmshop
