import GmshopEdge.Db.Schema

/-!
# Owner approvals

A proposal to the shop's owner is a row of `owner_action_requests` with buttons under a Telegram message
(`telegram/server/owner-actions.ts`). A press, or the reply to a prompt, claims the row, runs the handler
of its kind and records what came of it; a newer balance alert expires the older offers of its supplier
(`supersedeOffers` of `supplier-topup/server/topup.ts`).

What Telegram and the handlers answer are arguments of the calls. The state also remembers the claims of
each row, newest first, the handlers that were started and the outcomes of the runs; no statement reads
these.
-/

namespace Gmshop

open Sql Stmt Prog

/-! ## Tables -/

inductive ActionStatus where
  | pending
  | processing
  | approved
  | rejected
  | failed
  | expired
  deriving DecidableEq

def ActionStatus.settled : ActionStatus → Bool
  | .pending => false
  | .processing => false
  | _ => true

inductive OwnerActionKind where
  | supplierRebind
  | supplierCostCap
  | pricingRaise
  | customerPriceSet
  | customerPriceDelete
  | customerPriceRaise
  | bulkProcurement
  | agentWalletTopup
  | supplierTopupOffer
  | supplierTopupPaid
  | agentWithdrawalBatchPaid
  | agentWithdrawalPaid
  | agentWithdrawalPaidManual
  | other (kind : String)
  deriving DecidableEq

/-- A stored result reads `text（北京时间 …）`, with the clock in Beijing. -/
structure ResultLine where
  text : String
  clock : Time

/-- A run's claim on a row, which the run gives back when it reopens the row. -/
structure ActionClaim where
  run : Nat
  time : Time
  released : Bool

structure ActionRequest where
  id : Id
  kind : OwnerActionKind
  /-- `$.supplierId` of the payload. -/
  supplierId : Id
  status : ActionStatus
  chatId : Option Nat
  messageId : Option Nat
  promptMessageId : Option Nat
  promptChoice : Option Nat
  decidedBy : Option Nat
  decidedAt : Option Time
  result : Option ResultLine
  expiresAt : Time
  claims : List ActionClaim

instance : KeyedRow ActionRequest where
  clash a b := a.id == b.id
  key := ActionRequest.id
  clash_of_key a b h := by simp [h]

/-- A handler at work, in the run that claimed the row at `claimedAt`. -/
structure HandlerRun where
  requestId : Id
  run : Nat
  claimedAt : Time
  deriving DecidableEq

structure RunOutcome where
  requestId : Id
  run : Nat
  status : ActionStatus
  line : ResultLine

/-- The requests, with the number of runs so far, the handlers at work (those of a crashed run stay) and
the outcomes. -/
structure OwnerActions where
  requests : Table ActionRequest
  runs : Nat
  running : List HandlerRun
  ran : List RunOutcome

def OwnerActions.requestsT : TableRef OwnerActions ActionRequest :=
  ⟨OwnerActions.requests, fun s t => { s with requests := t }, fun _ _ => rfl⟩

inductive OwnerActionSite where
  | propose (id : Id)
  | setMessage (id : Id)
  | prompt (id : Id)
  | claim (id : Id) (run : Nat) (now : Time)
  | startHandler (id : Id) (run : Nat)
  | endHandler (id : Id) (run : Nat)
  | reopen (id : Id) (run : Nat)
  | record (id : Id) (run : Nat)
  | supersede (supplierId : Id)
  deriving DecidableEq

structure OwnerAlertError where
  code : String
  deriving DecidableEq

abbrev OwnerActionProg := Prog OwnerActions OwnerActionSite OwnerAlertError

/-! ## Handlers -/

structure HandlerEntry where
  rejectedLine : Option String := none
  loadReject : Bool := false
  retryOnFailure : Bool := false
  /-- The pattern of the text that the approve button asks for. -/
  input : Option (List Char → Bool) := none

/-- `/^[0-9A-Za-z_-]{6,64}$/`. -/
def isTradeNumber (text : List Char) : Bool :=
  decide (6 ≤ text.length) && decide (text.length ≤ 64) &&
    text.all fun c => c.isDigit || c.isUpper || c.isLower || c == '_' || c == '-'

def handlers : OwnerActionKind → Option HandlerEntry
  | .supplierRebind => some {}
  | .supplierCostCap => some {}
  | .pricingRaise => some {}
  | .customerPriceSet => some { rejectedLine := some "❌ 已取消，没有设置" }
  | .customerPriceDelete => some { rejectedLine := some "❌ 已取消，没有删除" }
  | .customerPriceRaise => some { rejectedLine := some "保持不变" }
  | .bulkProcurement => some { rejectedLine := some "🚫 这批不进了，客户兑换时单张进货" }
  | .agentWalletTopup =>
    some { rejectedLine := some "❌ 已取消，没有充值", retryOnFailure := true }
  | .supplierTopupOffer => some { rejectedLine := some "🙅 不充值，这次提醒已关闭" }
  | .supplierTopupPaid =>
    some { rejectedLine := some "❌ 不充值了，这笔订单作废（没付款就不用管）", loadReject := true }
  | .agentWithdrawalBatchPaid =>
    some { rejectedLine := some "⏸ 先不处理，提现仍是待打款（下周一会再列出来）" }
  | .agentWithdrawalPaid => some { rejectedLine := some "⏸ 先不处理，提现仍是待打款" }
  | .agentWithdrawalPaidManual =>
    some { rejectedLine := some "⏸ 先不处理，提现仍是待打款", input := some isTradeNumber }
  | .other _ => none

inductive HandlerAnswer where
  | line (text : String)
  | domainError (message : String)
  | error

/-- A handler is called: the approval's, or the one for the reject button. -/
def callsHandler (kind : OwnerActionKind) : Option Nat → Bool
  | none => (handlers kind).any (·.loadReject)
  | some _ => (handlers kind).isSome

def notDone (reason : String) : String := "⚠️ 没有执行：" ++ reason ++ "。请到后台处理。"

def runResult (kind : OwnerActionKind) (choice : Option Nat) (answer : HandlerAnswer) (now : Time) :
    ActionStatus × ResultLine :=
  match choice with
  | none => (.rejected, ⟨((handlers kind).bind (·.rejectedLine)).getD "❌ 已选择不处理", now⟩)
  | some _ =>
    match kind with
    | .other name => (.failed, ⟨notDone name, now⟩)
    | _ => match answer with
      | .line text => (.approved, ⟨text, now⟩)
      | .domainError message => (.failed, ⟨notDone message, now⟩)
      | .error => (.failed, ⟨notDone "内部错误", now⟩)

/-! ## Claim and run -/

def processingLeaseMs : Nat := 5 * 60000

structure ClaimInput where
  id : Id
  chatId : Nat
  messageId : Nat
  decidedBy : Nat
  choice : Option Nat
  now : Time

def nextRun : OwnerActionProg Nat := .act none Nat (fun s => (s.runs, { s with runs := s.runs + 1 })) .done

/-- The WHERE of the claim: the row is pending, or a claim on it is older than the lease. -/
def claimableRequest (input : ClaimInput) (r : ActionRequest) : Bool :=
  decide (input.now < r.expiresAt) && r.chatId == some input.chatId &&
    r.messageId == some input.messageId && (r.status == .pending ||
      r.status == .processing && r.decidedAt.any fun t => decide (t + processingLeaseMs < input.now))

def ActionRequest.claimed (input : ClaimInput) (run : Nat) (r : ActionRequest) : ActionRequest :=
  { r with
    status := .processing, decidedBy := some input.decidedBy, decidedAt := some input.now,
    claims := ⟨run, input.now, false⟩ :: r.claims }

def ActionClaim.releasedBy (run : Nat) (c : ActionClaim) : ActionClaim :=
  { c with released := c.released || c.run == run }

def ActionRequest.reopened (run : Nat) (line : ResultLine) (r : ActionRequest) : ActionRequest :=
  { r with
    status := .pending, result := some line, decidedBy := none, decidedAt := none,
    claims := r.claims.map (·.releasedBy run) }

def OwnerActions.startHandler (input : ClaimInput) (run : Nat) (s : OwnerActions) : OwnerActions :=
  { s with running := ⟨input.id, run, input.now⟩ :: s.running }

def OwnerActions.endHandler (outcome : RunOutcome) (s : OwnerActions) : OwnerActions :=
  { s with running := s.running.filter (·.run != outcome.run), ran := outcome :: s.ran }

def callHandler (input : ClaimInput) (run : Nat) (kind : OwnerActionKind) : OwnerActionProg Unit :=
  if callsHandler kind input.choice then effect (.startHandler input.id run) (OwnerActions.startHandler input run)
  else .done ()

/-- A failure that may be retried reopens the row; any other result is recorded. -/
def settleRun (id : Id) (run : Nat) (kind : OwnerActionKind) (status : ActionStatus) (line : ResultLine) :
    OwnerActionProg Unit :=
  if status = .failed && (handlers kind).any (·.retryOnFailure) then do
    let _ ← commit (.reopen id run) [update OwnerActions.requestsT (fun _ r => r.id == id && r.status == .processing)
        fun _ => ActionRequest.reopened run line]
    .done ()
  else do
    let _ ← commit (.record id run) [update OwnerActions.requestsT (fun _ r => r.id == id && r.status == .processing)
        fun _ r => { r with status := status, result := some line }]
    .done ()

/-- The run of a claimed row: `none` when another run has it, or it is no longer open. -/
def claimAndRun (input : ClaimInput) (answer : HandlerAnswer) :
    OwnerActionProg (Option (ActionStatus × ResultLine)) := do
  let run ← nextRun
  let claimed ← commit (.claim input.id run input.now)
    [update OwnerActions.requestsT (fun _ r => r.id == input.id && claimableRequest input r)
      fun _ => ActionRequest.claimed input run]
  let row ← query fun s => s.requests.get? input.id
  match row with
  | none => .done none
  | some row =>
    if claimed ≠ [1] then .done none
    else do
      callHandler input run row.kind
      let (status, line) := runResult row.kind input.choice answer input.now
      effect (.endHandler input.id run) (OwnerActions.endHandler ⟨input.id, run, status, line⟩)
      settleRun input.id run row.kind status line
      .done (some (status, line))

/-! ## Buttons and replies -/

inductive ActionAnswer where
  | unhandled
  | forbidden
  | failed
  | awaitingInput
  | invalidInput
  | stale
  | decided (status : ActionStatus) (line : ResultLine)

def ActionAnswer.of : Option (ActionStatus × ResultLine) → ActionAnswer
  | none => .stale
  | some (status, line) => .decided status line

/-- A press on a button of the request, with the chat of the owner alerts, what Telegram says of the
presser, and the id of the prompt if one is sent. -/
structure ButtonPress where
  id : Id
  choice : Option Nat
  chatId : Nat
  messageId : Nat
  fromId : Nat
  isBot : Bool
  isCreator : Bool
  ownerChatId : Option Nat
  promptMessageId : Option Nat
  now : Time

def handleOwnerActionCallback (press : ButtonPress) (answer : HandlerAnswer) : OwnerActionProg ActionAnswer :=
  match press.ownerChatId with
  | none => .done .unhandled
  | some ownerChatId =>
    if press.chatId ≠ ownerChatId || press.isBot || !press.isCreator then .done .forbidden
    else do
      let row ← query fun s => (s.requests.get? press.id).filter fun r =>
        r.status == .pending && decide (press.now < r.expiresAt) && r.chatId == some press.chatId &&
          r.messageId == some press.messageId
      if press.choice.isSome && row.any fun r => (handlers r.kind).any (·.input.isSome) then
        match press.promptMessageId with
        | none => .done .failed
        | some promptMessageId => do
          let _ ← commit (.prompt press.id)
            [update OwnerActions.requestsT (fun _ r => r.id == press.id && r.status == .pending)
              fun _ r => { r with promptMessageId := some promptMessageId, promptChoice := press.choice }]
          .done .awaitingInput
      else do
        let result ← claimAndRun ⟨press.id, press.chatId, press.messageId, press.fromId, press.choice,
          press.now⟩ answer
        .done (.of result)

/-- A message in the owner's chat that replies to another one; `text` is its trimmed text. -/
structure ReplyMessage where
  chatId : Nat
  replyTo : Nat
  text : List Char
  fromId : Nat
  isBot : Bool
  isCreator : Bool
  ownerChatId : Option Nat
  now : Time

def handleOwnerActionReply (message : ReplyMessage) (answer : HandlerAnswer) : OwnerActionProg ActionAnswer :=
  match message.ownerChatId with
  | none => .done .unhandled
  | some ownerChatId =>
    if message.chatId ≠ ownerChatId || message.isBot then .done .unhandled
    else do
      let row ← query fun s => s.requests.rows.find? fun r => r.chatId == some message.chatId &&
        r.promptMessageId == some message.replyTo && r.status == .pending &&
          decide (message.now < r.expiresAt)
      match row with
      | none => .done .unhandled
      | some row =>
        match (handlers row.kind).bind (·.input), row.promptChoice, row.messageId with
        | some pattern, some choice, some messageId =>
          if !message.isCreator then .done .forbidden
          else if !pattern message.text then .done .invalidInput
          else do
            let result ← claimAndRun ⟨row.id, message.chatId, messageId, message.fromId, some choice,
              message.now⟩ answer
            .done (.of result)
        | _, _, _ => .done .unhandled

/-! ## Proposals -/

/-- `proposeOwnerAction` where the buttons work; Telegram answers with the message id or an error. -/
def proposeOwnerAction (id : Id) (kind : OwnerActionKind) (supplierId : Id) (expiresAt : Time)
    (chatId : Nat) (sent : Except OwnerAlertError Nat) : OwnerActionProg Id := do
  let _ ← commit (.propose id) [insert OwnerActions.requestsT .abort fun _ =>
    [⟨id, kind, supplierId, .pending, none, none, none, none, none, none, none, expiresAt, []⟩]]
  match sent with
  | .error e => throw e
  | .ok messageId => do
    let _ ← commit (.setMessage id) [update OwnerActions.requestsT (fun _ r => r.id == id)
      fun _ r => { r with chatId := some chatId, messageId := some messageId }]
    .done id

def supersedeOffers (supplierId : Id) : OwnerActionProg Unit := do
  let _ ← commit (.supersede supplierId) [update OwnerActions.requestsT
    (fun _ r => r.kind == .supplierTopupOffer && r.status == .pending && r.supplierId == supplierId)
    fun _ r => { r with status := .expired }]
  .done ()

/-- The calls, with what their callers pass and what Telegram and the handler answer. -/
inductive OwnerActionCall where
  | propose (id : Id) (kind : OwnerActionKind) (supplierId : Id) (expiresAt : Time) (chatId : Nat)
      (sent : Except OwnerAlertError Nat)
  | press (input : ButtonPress) (answer : HandlerAnswer)
  | reply (message : ReplyMessage) (answer : HandlerAnswer)
  | supersede (supplierId : Id)

def OwnerActionCall.code : OwnerActionCall → OwnerActionProg Unit
  | .propose id kind supplierId expiresAt chatId sent =>
    (proposeOwnerAction id kind supplierId expiresAt chatId sent).void
  | .press input answer => (handleOwnerActionCallback input answer).void
  | .reply message answer => (handleOwnerActionReply message answer).void
  | .supersede supplierId => supersedeOffers supplierId

end Gmshop
