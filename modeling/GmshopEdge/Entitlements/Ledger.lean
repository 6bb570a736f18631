import Mathlib
import GmshopEdge.Db.Triggers

/-!
# The entitlement ledger

`createEntitlementGrantStatements`, `activateEntitlementGrantStatements` and
`refundEntitlementGrantStatements` (`entitlements/server/ledger.ts`): the statements that other
batches splice in when an item is paid, delivered or refunded. They write `entitlement_grants` and
`customer_entitlements` only (`grantStatements_keep`).
-/

namespace Gmshop

open Sql Stmt

abbrev Call (ℓ α : Type) := Prog Db ℓ DomainError α

def liftExcept {ℓ α : Type} : Except DomainError α → Call ℓ α
  | .ok a => pure a
  | .error e => Prog.throw e

def failureCode (fallback : String) : Failure DomainError → String
  | .thrown e => e.code
  | _ => fallback

/-- `multipliedLimit`; a product beyond `Number.MAX_SAFE_INTEGER` is refused. -/
def multipliedLimit (limit : Option Nat) (quantity : Nat) : Except DomainError (Option Nat) :=
  match limit with
  | none => .ok none
  | some l =>
    if l * quantity ≤ 9007199254740991 then .ok (some (l * quantity))
    else .error ⟨"entitlement_limit_too_large", 400, "Entitlement limit is too large"⟩

/-- `createEntitlementGrantStatements`: a pending entitlement (unless the item renews one) and a
pending grant, both only for a paid order. -/
def createEntitlementGrantStatements (orderId : Id) (item : ShopOrderItem) (now : Time)
    (newEntitlementId grantId : Id) : Except DomainError (List (Stmt Db)) := do
  let entitlementId := item.renewedFromEntitlementId.getD newEntitlementId
  let usageGranted ← multipliedLimit item.usageLimit item.quantity
  let accessGranted ← multipliedLimit item.accessLimit item.quantity
  let entitlement : List (Stmt Db) :=
    if item.renewedFromEntitlementId.isNone then [insert Db.entitlementsT .abort fun s =>
        s.fromOrder orderId (fun o => o.status == .paid) fun o =>
          { id := entitlementId, userId := o.userId, orderItemId := item.id
            sellableItemId := item.sellableItemId, status := .pending }]
    else []
  let grant : Stmt Db := insert Db.grantsT .abort fun s =>
    (s.entitlements.rows.filter fun e => e.id == entitlementId && e.sellableItemId == item.sellableItemId &&
        s.orderIs orderId (fun o => o.status == .paid && e.userId == o.userId)).map fun _ =>
      { id := grantId, entitlementId := entitlementId, sourceOrderItemId := item.id
        status := .pending, durationMs := item.durationMs, usageGranted := usageGranted
        accessGranted := accessGranted, createdAt := now }
  return entitlement ++ [grant]

/-- The grant of an order item (`source_order_item_id` is unique). -/
def grantOf (s : Db) (orderItemId : Id) : Option EntitlementGrant :=
  s.grants.rows.find? fun g => g.sourceOrderItemId == orderItemId

/-- The grant that an activation applies: pending, not applied, with no access or upgrade order of
the item still open. -/
def appliableGrant (s : Db) (orderItemId : Id) (requireDownloadAsset : Bool) (g : EntitlementGrant) : Bool :=
  g.sourceOrderItemId == orderItemId && g.status == .pending && g.appliedAt.isNone &&
    !(s.agentOrders.exist fun a => a.orderItemId == orderItemId && a.state != .active) &&
    !(s.upgradeOrders.exist fun u => u.orderItemId == orderItemId && u.state != .delivered) &&
    (!requireDownloadAsset || s.downloadAssets.exist fun d => d.orderItemId == orderItemId)

/-- `CASE WHEN granted IS NULL THEN NULL WHEN no prior grant THEN granted WHEN limit IS NULL THEN
NULL ELSE limit + granted END`. -/
def stackedLimit (granted : Option Nat) (prior : Bool) (limit : Option Nat) : Option Nat :=
  match granted with
  | none => none
  | some n => if prior then limit.map (· + n) else some n

/-- The expiry after a grant of `duration` is applied at `now`. -/
def stackedExpiry (duration : Option Nat) (prior : Bool) (expiresAt : Option Time) (now : Time) : Option Time :=
  match duration with
  | none => none
  | some d => if prior then expiresAt.map fun t => if now < t then t + d else now + d
    else some (now + d)

def activateEntitlementGrantStatements (orderItemId : Id) (now : Time)
    (requireDownloadAsset : Bool := false) : List (Stmt Db) :=
  [update Db.entitlementsT (fun s e => s.grants.exist fun g =>
        appliableGrant s orderItemId requireDownloadAsset g && g.entitlementId == e.id)
      (fun s e =>
        let grant := grantOf s orderItemId
        let prior := s.grants.exist fun g => g.entitlementId == e.id && g.status == .active
        { e with
          status := .active
          usageLimit := stackedLimit (grant.bind (·.usageGranted)) prior e.usageLimit
          accessLimit := stackedLimit (grant.bind (·.accessGranted)) prior e.accessLimit
          activatedAt := some (e.activatedAt.getD now)
          expiresAt := stackedExpiry (grant.bind (·.durationMs)) prior e.expiresAt now }),
    update Db.grantsT (fun s g => g.sourceOrderItemId == orderItemId && g.status == .pending && g.appliedAt.isNone &&
        s.entitlements.exist fun e => e.id == g.entitlementId && e.status == .active)
      (fun _ g => { g with status := .active, activatedAt := some now, appliedAt := some now })]

/-! ## Refunding -/

/-- `rebuildExpiry`: the grants that stay, laid end to end. -/
def rebuildExpiry (grants : List EntitlementGrant) : Option Time :=
  if grants.isEmpty || grants.any (fun g => g.durationMs.isNone) then none
  else some (grants.foldl (fun expiresAt g => max expiresAt (g.activatedAt.getD 0) + g.durationMs.getD 0) 0)

def sumGranted (grants : List EntitlementGrant) (key : EntitlementGrant → Option Nat) : Option Nat :=
  if grants.isEmpty || grants.any (fun g => (key g).isNone) then none
  else some (grants.foldl (fun total g => total + (key g).getD 0) 0)

/-- `ORDER BY activated_at, created_at, id`. -/
def grantOrder (a b : EntitlementGrant) : Bool :=
  let ka := (a.activatedAt.getD 0, a.createdAt, a.id)
  let kb := (b.activatedAt.getD 0, b.createdAt, b.id)
  decide (ka.1 < kb.1) || (ka.1 == kb.1 && (decide (ka.2.1 < kb.2.1) ||
    (ka.2.1 == kb.2.1 && decide (ka.2.2 ≤ kb.2.2))))

def otherActiveGrants (s : Db) (entitlementId orderId : Id) : List EntitlementGrant :=
  (List.insertionSort (fun a b => grantOrder a b = true) (s.grants.rows.filter fun g =>
      g.entitlementId == entitlementId && g.status == .active &&
        !s.itemOf orderId g.sourceOrderItemId)).filter fun g => g.activatedAt.isSome

/-- The entitlement row that remains of `e` when only `active` still count. -/
def rebuiltEntitlement (active : List EntitlementGrant) (usageCount accessCount : Nat)
    (now : Time) (e : CustomerEntitlement) : CustomerEntitlement :=
  let expiresAt := rebuildExpiry active
  let usageLimit := sumGranted active (·.usageGranted)
  let accessLimit := sumGranted active (·.accessGranted)
  { e with
    status :=
      if active.isEmpty then .revoked
      else if expiresAt.any (fun t => decide (t ≤ now)) then .expired
      else if usageLimit.any (fun l => decide (l ≤ usageCount)) ||
          accessLimit.any (fun l => decide (l ≤ accessCount)) then .exhausted
      else .active
    usageLimit := usageLimit
    accessLimit := accessLimit
    activatedAt := active.head?.bind (·.activatedAt)
    expiresAt := expiresAt }

/-- The refund whose completion guards a statement: `completed_refund` in the source. -/
structure RefundGuard where
  refundId : Id
  attempt : Nat

/-- `EXISTS (SELECT 1 FROM refunds completed_refund WHERE id = ? AND attempt_count = ? AND status =
? AND completed_at = ?)`. -/
def completedRefund (s : Db) (refundId : Id) (attempt : Nat) (status : RefundStatus) (now : Time) : Bool :=
  s.refunds.exist fun r => r.id == refundId && r.attemptCount == attempt && r.status == status &&
    r.completedAt == some now

def RefundGuard.holds (guard : Option RefundGuard) (now : Time) (s : Db) : Bool :=
  match guard with
  | none => true
  | some g => completedRefund s g.refundId g.attempt .succeeded now

def refundEntitlementStatement {ℓ : Type} (orderId : Id) (now : Time) (guard : Option RefundGuard)
    (entitlementId : Id) : Call ℓ (Stmt Db) := do
  let entitlement ← Prog.query fun s => s.entitlements.get? entitlementId
  let active ← Prog.query fun s => otherActiveGrants s entitlementId orderId
  return update Db.entitlementsT (fun s e => e.id == entitlementId && RefundGuard.holds guard now s)
    (fun _ e => rebuiltEntitlement active ((entitlement.map (·.usageCount)).getD 0)
      ((entitlement.map (·.accessCount)).getD 0) now e)

def refundEntitlementStatements {ℓ : Type} (orderId : Id) (now : Time)
    (guard : Option RefundGuard) : List Id → Call ℓ (List (Stmt Db))
  | [] => pure []
  | e :: es => do
    let st ← refundEntitlementStatement orderId now guard e
    let rest ← refundEntitlementStatements orderId now guard es
    return st :: rest

def refundEntitlementGrantStatements {ℓ : Type} (orderId : Id) (now : Time)
    (guard : Option RefundGuard) : Call ℓ (List (Stmt Db)) := do
  let affected ← Prog.query fun s =>
    ((s.grants.rows.filter fun g => s.itemOf orderId g.sourceOrderItemId &&
      (g.status == .pending || g.status == .active)).map (·.entitlementId)).dedup
  let rebuilt ← refundEntitlementStatements orderId now guard affected
  return update Db.grantsT (fun s g => s.itemOf orderId g.sourceOrderItemId &&
        (g.status == .pending || g.status == .active) && RefundGuard.holds guard now s)
      (fun _ g => { g with status := .refunded }) :: rebuilt

/-! ## What the ledger's statements leave alone -/

structure OffEntitlements {γ : Type} (g : Db → γ) : Prop where
  grants : ∀ s t, g (Db.grantsT.set s t) = g s
  entitlements : ∀ s t, g (Db.entitlementsT.set s t) = g s

section Frame

variable {γ : Type} {g : Db → γ}

theorem activateEntitlementGrantStatements_keep (hg : OffEntitlements g) (item : Id) (now : Time)
    (req : Bool) : ∀ st ∈ activateEntitlementGrantStatements item now req, Keeps g st := by
  intro st hst
  exact each_two (update_keeps hg.entitlements) (update_keeps hg.grants) _ hst

end Frame

section Reads

variable {ℓ : Type} {P : Stmt Db → Prop}

theorem refundEntitlementStatements_reads (he : ∀ p f, P (update Db.entitlementsT p f))
    (orderId : Id) (now : Time) (guard : Option RefundGuard) (es : List Id) :
    Prog.Reads (fun sts => ∀ st ∈ sts, P st) (refundEntitlementStatements (ℓ := ℓ) orderId now guard es) := by
  induction es with
  | nil => intro st hst; cases hst
  | cons e es ih =>
    refine Prog.Reads.bind (P := P) ?_ fun st hst => ih.bind fun rest hrest => ?_
    · exact (Prog.reads_query _).bind fun _ _ => (Prog.reads_query _).bind fun _ _ => he _ _
    · intro x hx
      rcases List.mem_cons.mp hx with rfl | hx
      · exact hst
      · exact hrest x hx

theorem refundEntitlementGrantStatements_reads (he : ∀ p f, P (update Db.entitlementsT p f))
    (hg : ∀ p, P (update Db.grantsT p fun _ g => { g with status := .refunded }))
    (orderId : Id) (now : Time) (guard : Option RefundGuard) :
    Prog.Reads (fun sts => ∀ st ∈ sts, P st) (refundEntitlementGrantStatements (ℓ := ℓ) orderId now guard) := by
  refine (Prog.reads_query _).bind fun affected _ =>
    (refundEntitlementStatements_reads he orderId now guard _).bind fun rest hrest => ?_
  intro x hx
  rcases List.mem_cons.mp hx with rfl | hx
  · exact hg _
  · exact hrest x hx

end Reads

end Gmshop
