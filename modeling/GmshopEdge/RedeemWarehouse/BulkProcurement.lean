import Mathlib
import GmshopEdge.Db.Schema
import GmshopEdge.Lib.Serial

/-!
# Bulk procurement

An order line of at least three owned codes is a line of `bulk_procurements`
(`redeem-warehouse/server/bulk-procurement.ts`). The minute's pass `runBulkProcurements` releases lines that are
given up, sends messages again that did not go out, and asks the warehouse to buy for the lines that are due. The
owner's buttons are proposals of `owner_action_requests`; `approveBulkProcurement` is the handler of an approval.

* What the warehouse and Telegram answer are arguments of a pass, as are the ids of proposals.
* The texts of messages, the code hashes and the numbers that only the texts show are left out.
* The state remembers the purchase requests that were sent, the releases that the warehouse accepted, the messages
  that went out and the approvals that were run; no statement reads these.
-/

namespace Gmshop

open Sql Stmt Prog

/-! ## Tables -/

inductive BulkState where
  | pending
  | verifying
  | supplied
  | review
  | awaitingFunds
  | awaitingStock
  | awaitingPrice
  | skipped
  | cancelled
  deriving DecidableEq

/-- `awaitingStates`. -/
def BulkState.awaits : BulkState → Bool
  | .awaitingFunds | .awaitingStock | .awaitingPrice => true
  | _ => false

def BulkState.final : BulkState → Bool
  | .supplied | .skipped | .cancelled => true
  | _ => false

structure BulkResult where
  status : String
  unitFen : Option Int := none
  reason : Option String := none
  deriving DecidableEq

/-- `bulk_procurements`. -/
structure BulkLine where
  id : Id
  orderId : Id
  orderItemId : Id
  warehouseSku : String
  quantity : Nat
  state : BulkState := .pending
  acceptUnitMinor : Option Nat := none
  attemptCount : Nat := 0
  notifiedState : Option BulkState := none
  ownerActionId : Option Id := none
  lastResult : Option BulkResult := none
  nextAttemptAt : Time := 0
  createdAt : Time
  updatedAt : Time
  deriving DecidableEq

instance : KeyedRow BulkLine where
  clash a b := a.id == b.id || a.orderItemId == b.orderItemId
  key := BulkLine.id
  clash_of_key a b h := by simp [h]

structure BulkOrder where
  id : Id
  status : ShopOrderStatus

instance : KeyedRow BulkOrder where
  clash a b := a.id == b.id
  key := BulkOrder.id
  clash_of_key a b h := by simp [h]

/-- `owner_action_requests.status`. -/
inductive OfferStatus where
  | pending
  | processing
  | approved
  | rejected
  | failed
  | expired
  deriving DecidableEq

def OfferStatus.decided : OfferStatus → Bool
  | .pending | .processing => false
  | _ => true

/-- A proposal to the owner about a line; its buttons work once the message's number is stored. -/
structure BulkOffer where
  id : Id
  lineId : Id
  acceptUnitMinor : Option Int
  status : OfferStatus := .pending
  shown : Bool := false

instance : KeyedRow BulkOffer where
  clash a b := a.id == b.id
  key := BulkOffer.id
  clash_of_key a b h := by simp [h]

structure BulkPurchase where
  lineId : Id
  acceptUnitFen : Option Nat

structure BulkApproval where
  offerId : Id
  lineId : Id

structure Bulk where
  lines : Table BulkLine
  orders : Table BulkOrder
  offers : Table BulkOffer
  purchases : List BulkPurchase
  released : List Id
  announced : List (Id × BulkState)
  approvals : List BulkApproval

def Bulk.linesT : TableRef Bulk BulkLine := ⟨Bulk.lines, fun s t => { s with lines := t }, fun _ _ => rfl⟩

def Bulk.offersT : TableRef Bulk BulkOffer := ⟨Bulk.offers, fun s t => { s with offers := t }, fun _ _ => rfl⟩

inductive BulkSite where
  | line
  | offer
  | release
  | purchase
  | message

abbrev BulkProg := Prog Bulk BulkSite Unit

/-! ## Statements -/

def bulkMinimumQuantity : Nat := 3

/-- `recordBulkSale` for a line of enough codes. -/
def recordBulkSale (id orderId orderItemId : Id) (sku : String) (quantity : Nat) (now : Time) : Stmt Bulk :=
  insert Bulk.linesT .orIgnore fun _ =>
    [{ id := id, orderId := orderId, orderItemId := orderItemId, warehouseSku := sku, quantity := quantity,
       createdAt := now, updatedAt := now }]

/-- `approveBulkProcurement`; `approvalSchema` takes a price of digits only. -/
def approveBulkProcurement (lineId : Id) (acceptUnitMinor : Option Int) (now : Time) : Stmt Bulk :=
  update Bulk.linesT (fun _ b => b.id == lineId && b.state.awaits && acceptUnitMinor.all (0 ≤ ·))
    fun _ b => { b with state := .pending, nextAttemptAt := 0, attemptCount := 0, notifiedState := none,
                        ownerActionId := none, updatedAt := now,
                        acceptUnitMinor := (acceptUnitMinor.map Int.toNat) <|> b.acceptUnitMinor }

/-! ## A pass -/

/-- How a message is delivered: with the buttons of a proposal, or without; whether it goes out. -/
structure Delivery where
  actionId : Option Id := none
  sent : Bool := true

structure BulkPass where
  now : Time
  /-- A token is there for releases, and for purchases. -/
  releaseToken : Bool := true
  purchaseToken : Bool := true
  /-- The warehouse accepts the release of a line. -/
  release : Id → Bool
  /-- The warehouse's answer to the purchase request of a line; `none` is a failure of the request. -/
  purchase : Id → Option BulkResult
  /-- The message that is sent again, and the one about a new state. -/
  resend : Id → Delivery
  send : Id → Delivery

def Bulk.statusOf (s : Bulk) (b : BulkLine) : Option ShopOrderStatus := (s.orders.get? b.orderId).map (·.status)

def withdrawn : ShopOrderStatus → Bool
  | .refunding | .refunded | .cancelled => true
  | _ => false

def Bulk.rejects (s : Bulk) (b : BulkLine) : Bool :=
  b.ownerActionId.any fun a => s.offers.exist fun o => o.id == a && o.status == .rejected

def Bulk.givesUp (s : Bulk) (b : BulkLine) : Option BulkState :=
  match s.statusOf b with
  | none => none
  | some status =>
    if b.state.awaits && s.rejects b || !b.state.final && withdrawn status then
      some (if withdrawn status then .cancelled else .skipped)
    else none

def Bulk.giveUps (s : Bulk) : List (BulkLine × BulkState) :=
  s.lines.rows.filterMap fun b => (s.givesUp b).map (b, ·)

def BulkLine.unsent (b : BulkLine) : Bool :=
  b.state != .pending && b.state != .verifying && b.notifiedState != some b.state

def Bulk.unsentLines (s : Bulk) : List BulkLine :=
  (List.insertionSort (fun a b : BulkLine => a.updatedAt ≤ b.updatedAt)
    (s.lines.rows.filter fun b => b.unsent && (s.statusOf b).isSome)).take 5

def BulkLine.dueAt (now : Time) (b : BulkLine) : Bool :=
  (b.state == .pending || b.state == .verifying || b.state == .review) && decide (b.nextAttemptAt ≤ now)

def BulkLine.before (a b : BulkLine) : Prop :=
  a.nextAttemptAt < b.nextAttemptAt ∨ a.nextAttemptAt = b.nextAttemptAt ∧ a.createdAt ≤ b.createdAt

instance : DecidableRel BulkLine.before := fun a b => by
  unfold BulkLine.before
  infer_instance

def Bulk.dueLines (s : Bulk) (now : Time) : List (BulkLine × ShopOrderStatus) :=
  ((List.insertionSort BulkLine.before
    (s.lines.rows.filter fun b => b.dueAt now && (s.statusOf b).isSome)).take 5).filterMap fun b =>
      (s.statusOf b).map (b, ·)

/-- `proposeOwnerAction`: the proposal, its message, and the message's number. -/
def proposeBulkAction (lineId : Id) (state : BulkState) (result : BulkResult) (actionId : Id) (sent : Bool) :
    BulkProg (Option (Option Id)) := do
  let accepted := if state = .awaitingPrice then result.unitFen.filter (· ≠ 0) else none
  let _ ← commit .offer [insert Bulk.offersT .abort fun _ =>
    [{ id := actionId, lineId := lineId, acceptUnitMinor := accepted }]]
  if !sent then throw ()
  else do
    Prog.effect .message fun s => { s with announced := s.announced ++ [(lineId, state)] }
    let _ ← commit .offer [update Bulk.offersT (fun _ o => o.id == actionId) fun _ o => { o with shown := true }]
    .done (some (some actionId))

/-- The message about a state: `none` when it did not go out, else the proposal it came with. -/
def deliver (lineId : Id) (state : BulkState) (result : BulkResult) (d : Delivery) : BulkProg (Option (Option Id)) :=
  match d.actionId.filter fun _ => state.awaits with
  | some actionId =>
    Prog.tryCatch (proposeBulkAction lineId state result actionId d.sent) fun _ => .done none
  | none =>
    if d.sent then do
      Prog.effect .message fun s => { s with announced := s.announced ++ [(lineId, state)] }
      .done (some none)
    else .done none

def notify (lineId : Id) (state : BulkState) (result : BulkResult) (d : Delivery) : BulkProg Unit := do
  let delivered ← deliver lineId state result d
  match delivered with
  | none => .done ()
  | some actionId =>
    (commit .line [update Bulk.linesT (fun _ b => b.id == lineId && b.state == state)
      fun _ b => { b with notifiedState := some state, ownerActionId := actionId <|> b.ownerActionId }]).void

/-- `UPDATE … WHERE id = ? AND state = ?` after an answer. -/
def settleLine (row : BulkLine) (state : BulkState) (result : BulkResult) (now nextAttemptAt : Time) : Stmt Bulk :=
  update Bulk.linesT (fun _ b => b.id == row.id && b.state == row.state)
    fun _ b => { b with state := state, lastResult := some result, nextAttemptAt := nextAttemptAt, updatedAt := now }

def settle (w : BulkPass) (row : BulkLine) (state : BulkState) (result : BulkResult) (nextAttemptAt : Time) :
    BulkProg Unit := do
  let changed ← commit .line [settleLine row state result w.now nextAttemptAt]
  if changed ≠ [1] ∨ row.notifiedState = some state then .done ()
  else if result.status = "not_bulk" then
    -- a silent skip: the line is not a bulk SKU at all
    (commit .line [update Bulk.linesT (fun _ b => b.id == row.id)
      fun _ b => { b with notifiedState := some state }]).void
  else notify row.id state result (w.send row.id)

def maxTransientAttempts : Nat := 15
def verifyPollMs : Nat := 60000
def reviewPollMs : Nat := 5 * 60000

/-- The state that an answer leads to, with the time until the next request; `none` for one to try again later. -/
def nextState (status : String) : Option (BulkState × Nat) :=
  if status = "verifying" then some (.verifying, verifyPollMs)
  else if status = "supplied" then some (.supplied, 0)
  else if status = "review" then some (.review, reviewPollMs)
  else if status = "funds_short" ∨ status = "failed" then some (.awaitingFunds, 0)
  else if status = "stock_short" then some (.awaitingStock, 0)
  else if status = "price_changed" then some (.awaitingPrice, 0)
  else if status = "below_tier" ∨ status = "nothing_needed" ∨ status = "not_bulk" then some (.skipped, 0)
  else none

def retryLater (row : BulkLine) (result : BulkResult) (attempts now : Time) : Stmt Bulk :=
  update Bulk.linesT (fun _ b => b.id == row.id && b.state == row.state)
    fun _ b => { b with attemptCount := attempts, nextAttemptAt := now + min 10 attempts * 60000,
                        lastResult := some result, updatedAt := now }

def advance (w : BulkPass) (row : BulkLine) (orderStatus : ShopOrderStatus) : BulkProg Unit :=
  if withdrawn orderStatus then .done ()
  else do
    Prog.effect .purchase fun s => { s with purchases := s.purchases ++ [⟨row.id, row.acceptUnitMinor⟩] }
    let result := (w.purchase row.id).getD ⟨"warehouse_unreachable", none, none⟩
    match nextState result.status with
    | some (state, delay) => settle w row state result (if delay = 0 then 0 else w.now + delay)
    | none =>
      let attempts := row.attemptCount + 1
      if maxTransientAttempts ≤ attempts then
        settle w row .review
          { result with reason := some (result.status ++ " after " ++ toString attempts ++ " tries") }
          (w.now + reviewPollMs)
      else (commit .line [retryLater row result attempts w.now]).void

def giveUp (w : BulkPass) (b : BulkLine) (next : BulkState) : BulkProg Unit :=
  if !w.release b.id then .done ()
  else do
    Prog.effect .release fun s => { s with released := s.released ++ [b.id] }
    (commit .line [update Bulk.linesT (fun _ x => x.id == b.id && x.state == b.state)
      fun _ x => { x with state := next, updatedAt := w.now }]).void

def forEach {α : Type} (f : α → BulkProg Unit) : List α → BulkProg Unit
  | [] => .done ()
  | a :: rest => f a >>= fun _ => forEach f rest

def runBulkProcurements (w : BulkPass) : BulkProg Unit := do
  let giveUps ← query fun s => s.giveUps.take 10
  (if w.releaseToken then forEach (fun g => giveUp w g.1 g.2) giveUps else .done ())
  let unsent ← query Bulk.unsentLines
  forEach (fun b => notify b.id b.state (b.lastResult.getD ⟨"", none, none⟩) (w.resend b.id)) unsent
  let due ← query fun s => s.dueLines w.now
  if w.purchaseToken then forEach (fun d => advance w d.1 d.2) due else .done ()

/-! ## What goes on around a pass -/

/-- Between the actions of a pass orders change, bulk sales are recorded, and the owner decides and approves;
the handler of an approval may run at any time once the buttons work, and more than once. -/
inductive BulkEvent : Bulk → Bulk → Prop
  | sale {id orderId orderItemId : Id} {sku : String} {quantity : Nat} {now : Time} {n : Nat} {s t : Bulk}
      (hquantity : bulkMinimumQuantity ≤ quantity)
      (h : recordBulkSale id orderId orderItemId sku quantity now 0 s = .ok (n, t)) : BulkEvent s t
  | orders (s : Bulk) (orders : Table BulkOrder) : BulkEvent s { s with orders := orders }
  | decide {id : Id} {status : OfferStatus} {n : Nat} {s t : Bulk}
      (h : update Bulk.offersT (fun _ o => o.id == id && !o.status.decided)
        (fun _ o => { o with status := status }) 0 s = .ok (n, t)) : BulkEvent s t
  | approve {o : BulkOffer} {now : Time} {n : Nat} {s t : Bulk} (ho : o ∈ s.offers.rows) (hshown : o.shown = true)
      (h : approveBulkProcurement o.lineId o.acceptUnitMinor now 0 s = .ok (n, t)) :
      BulkEvent s { t with approvals := t.approvals ++ [⟨o.id, o.lineId⟩] }

abbrev BulkRuns : Turn Bulk BulkSite Unit Unit → Turn Bulk BulkSite Unit Unit → Prop :=
  SerialRuns runBulkProcurements BulkEvent

end Gmshop
