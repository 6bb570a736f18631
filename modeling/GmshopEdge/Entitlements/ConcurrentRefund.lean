import GmshopEdge.Entitlements.Replay

/-!
# A refund next to an activation

`refundEntitlementGrantStatements` reads the grants of other orders one statement after the other, and
what its batch writes is computed from these reads. So it is right as long as they still stand when
the batch runs (`ledgerCurrent`); a grant that is activated in between is left out.
-/

namespace Gmshop

open Sql Stmt Prog

/-- The limits are those of the active grants, and an entitlement that has one is not revoked. -/
structure GrantsKept (s : Db) : Prop where
  limits : ∀ e ∈ s.entitlements.rows, LimitsMatch s e
  kept : ∀ e ∈ s.entitlements.rows, NotRevoked s e
  dated : Dated s

/-- The condition: an activation is guarded, and what a refund has read still stands when it writes. -/
def ledgerCurrent (x : LedgerSite) (s : Db) : Prop :=
  match x with
  | .activate orderItemId requireDownloadAsset => activationGuarded orderItemId requireDownloadAsset s
  | .refund orderId now guard reads =>
    RefundGuard.holds guard now s = true → readsCurrent orderId reads s

instance (x : LedgerSite) (s : Db) : Decidable (ledgerCurrent x s) := by
  cases x <;> unfold ledgerCurrent <;> infer_instance

def ledgerSpec : Spec Db LedgerSite Empty :=
  Spec.ofRel GrantsKept ledgerCurrent (fun _ _ => True) (fun _ _ => True) (fun _ => trivial)
    (fun _ => trivial) fun _ _ _ _ _ => trivial

theorem GrantsKept.step {now : Time} {s t : Db} (h : GrantsKept s) (hstep : LedgerStep now s t) : GrantsKept t := by
  cases hstep with
  | idle ht => exact ht ▸ h
  | activated g e ha => exact ⟨ha.limits h.limits, ha.notRevoked h.kept, ha.dated h.dated⟩
  | refunded orderId hr =>
    exact ⟨hr.limits h.dated h.limits, hr.notRevoked h.dated h.kept, hr.dated h.dated⟩

theorem LedgerCall.bare (c : LedgerCall) (s : Db) : Bare ledgerSpec c.code s := by
  cases c with
  | activate orderItemId now req =>
    refine (Bare.commit fun t _ hi hc ns u hb => ?_).bind fun _ _ _ => Bare.done _
    suffices hstep : LedgerStep now t u from Spec.admits_ofRel (hi.step hstep) trivial fun _ => trivial
    rcases activation_ok hc hb with hidle | ⟨g, e, h⟩
    · exact .idle hidle
    · exact .activated g e h
  | refund orderId now guard =>
    refine ((refundReads_reads orderId).bare s).bind fun reads t _ =>
      (Bare.commit fun t _ hi hc ns u hb => ?_).bind fun _ _ _ => Bare.done _
    suffices hstep : LedgerStep now t u from Spec.admits_ofRel (hi.step hstep) trivial fun _ => trivial
    rcases refund_ok hc hb with hidle | h
    · exact .idle hidle
    · exact .refunded orderId h

/-- In every run in which the reads of each refund still stand when it writes, an entitlement with an
active grant is not revoked, and its limits are those of all its active grants. -/
theorem concurrent_refund_keeps_grants {s : Db} (h0 : GrantsKept s)
    {w : World Db LedgerSite DomainError Unit} (hrun : Runs LedgerCall.code ledgerCurrent ⟨s, []⟩ w) :
    ∀ e ∈ w.db.entitlements.rows, activeGrants w.db e.id ≠ [] → e.status ≠ .revoked ∧
      e.usageLimit = sumGranted (activeGrants w.db e.id) (·.usageGranted) ∧
      e.accessLimit = sumGranted (activeGrants w.db e.id) (·.accessGranted) := by
  intro e he hne
  have hkept : GrantsKept w.db :=
    (Runs.sound ledgerSpec (fun c s _ => (c.bare s).ok) hrun (good_idle _ h0)).1.1
  exact ⟨hkept.kept e he hne, (hkept.limits e he).usage, (hkept.limits e he).access⟩

/-! ## Two runs -/

theorem twoGrantsDb_kept : GrantsKept twoGrantsDb where
  limits := twoGrantsDb_inv.limits
  kept := fun e he hne => by
    rw [List.mem_singleton.mp (show e ∈ [_] from he)] at hne
    exact absurd (by decide) hne
  dated := twoGrantsDb_inv.dated.dated

/-- The refund of the first order and the activation of the second, one after the other. -/
def inTurnRun : World Db LedgerSite DomainError Unit :=
  World.exec LedgerCall.code ledgerCurrent ⟨twoGrantsDb, []⟩
    (oneByOne [.activate 1 100 false, .refund 1 105 none, .activate 2 106 false] 5)

/-- The same, but the activation falls between the reads of the refund and its batch. -/
def inBetweenRun : World Db LedgerSite DomainError Unit :=
  World.exec LedgerCall.code anySite ⟨twoGrantsDb, []⟩
    ([Move.start (.activate 1 100 false), Move.run 0, Move.start (.refund 1 105 none)] ++
      List.replicate 3 (Move.run 1) ++ [Move.start (.activate 2 104 false), Move.run 2, Move.run 1])

theorem concurrent_refund_keeps_grants_inTurn :
    (inTurnRun.db.entitlements.rows.map fun e => (e.status, e.usageLimit)) = [(.active, some 3)] ∧
    ∀ e ∈ inTurnRun.db.entitlements.rows, activeGrants inTurnRun.db e.id ≠ [] → e.status ≠ .revoked ∧
      e.usageLimit = sumGranted (activeGrants inTurnRun.db e.id) (·.usageGranted) ∧
      e.accessLimit = sumGranted (activeGrants inTurnRun.db e.id) (·.accessGranted) :=
  ⟨by decide, concurrent_refund_keeps_grants twoGrantsDb_kept
    (World.exec_runs LedgerCall.code ledgerCurrent _ _)⟩

/-- The entitlement is revoked although a grant of it is active. -/
theorem not_concurrent_refund_keeps_grants : ¬∀ s, GrantsKept s → ∀ w : World Db LedgerSite DomainError Unit,
      Runs LedgerCall.code anySite ⟨s, []⟩ w →
        ∀ e ∈ w.db.entitlements.rows, activeGrants w.db e.id ≠ [] → e.status ≠ .revoked := by
  intro h
  have hkept := h twoGrantsDb twoGrantsDb_kept inBetweenRun (World.exec_runs LedgerCall.code anySite _ _)
  have hrow : ∃ e ∈ inBetweenRun.db.entitlements.rows,
      activeGrants inBetweenRun.db e.id ≠ [] ∧ e.status = .revoked := by decide
  obtain ⟨e, he, hactive, hrevoked⟩ := hrow
  exact hkept e he hactive hrevoked

end Gmshop
