import GmshopEdge.Entitlements.Ledger
import GmshopEdge.Lib.Guarantee

/-!
# Uses of an access

`consumeEntitlementAccess` (`entitlements/server/ledger.ts`): a use that has its key in the events already is answered
without a new one; else the batch counts it, if a use is left, and appends its event. Two uses of one key meet at the
unique key of the events, which rolls the second back.

Beside the uses run what ends an access: the refund of its last grant, and the expiry of `runMaintenance`.
-/

namespace Gmshop

open List Sql Stmt Prog Table Each

/-! ## Tables -/

inductive AccessAssetType where
  | stockSecret
  | downloadAsset
  | automationArtifact

inductive AccessEventType where
  | revealed
  | downloaded
  | emailContentSent

inductive AccessActor where
  | customer
  | admin
  | system

/-- A row of `entitlement_events` of kind `access` that counts. -/
structure AccessEvent where
  id : Id
  entitlementId : Id
  assetType : AccessAssetType
  assetId : Id
  eventType : AccessEventType
  actorType : AccessActor
  idempotencyKey : Option String
  requestId : Option String
  ipAddress : Option String
  createdAt : Time

instance : KeyedRow AccessEvent where
  clash a b := a.id == b.id || a.idempotencyKey.isSome && a.idempotencyKey == b.idempotencyKey
  key := AccessEvent.id
  clash_of_key a b h := by simp [h]

structure AccessBooks where
  entitlements : Table CustomerEntitlement
  events : Table AccessEvent

def AccessBooks.entitlementsT : TableRef AccessBooks CustomerEntitlement :=
  ⟨AccessBooks.entitlements, fun s t => { s with entitlements := t }, fun _ _ => rfl⟩

def AccessBooks.eventsT : TableRef AccessBooks AccessEvent :=
  ⟨AccessBooks.events, fun s t => { s with events := t }, fun _ _ => rfl⟩

/-! ## Calls -/

structure AccessInput where
  entitlementId : Id
  assetType : AccessAssetType
  assetId : Id
  eventType : AccessEventType
  actorType : AccessActor
  idempotencyKey : Option String := none
  requestId : Option String := none
  ipAddress : Option String := none
  unavailableCode : Option String := none
  unavailableMessage : Option String := none

/-- A use, with the id that it draws for its event and what the clock says. -/
structure AccessUse where
  input : AccessInput
  eventId : Id
  now : Time

inductive AccessUseCall where
  | consume (use : AccessUse)
  | revoke (entitlementId : Id) (usageCount accessCount : Nat) (now : Time)
  | expire (now : Time)

abbrev AccessProg := Prog AccessBooks AccessUseCall DomainError

def CustomerEntitlement.usable (e : CustomerEntitlement) (now : Time) : Bool :=
  (e.status == .active || e.status == .exhausted) && e.expiresAt.all (fun t => decide (now < t)) &&
    e.accessLimit.all fun l => decide (e.accessCount < l)

def CustomerEntitlement.use (e : CustomerEntitlement) : CustomerEntitlement :=
  { e with
    accessCount := e.accessCount + 1
    status := if e.accessLimit.any fun l => decide (l ≤ e.accessCount + 1) then .exhausted else e.status }

def AccessUse.event (u : AccessUse) : AccessEvent where
  id := u.eventId
  entitlementId := u.input.entitlementId
  assetType := u.input.assetType
  assetId := u.input.assetId
  eventType := u.input.eventType
  actorType := u.input.actorType
  idempotencyKey := u.input.idempotencyKey
  requestId := u.input.requestId
  ipAddress := u.input.ipAddress
  createdAt := u.now

def consumeStatements (u : AccessUse) : List (Stmt AccessBooks) :=
  [update AccessBooks.entitlementsT (fun _ e => e.id == u.input.entitlementId && e.usable u.now) fun _ e => e.use,
    onChanges fun changes => insert AccessBooks.eventsT .abort fun _ => if changes = 1 then [u.event] else []]

def AccessInput.replayKey (input : AccessInput) : Option String := input.idempotencyKey.filter fun key => key != ""

def replayed (input : AccessInput) : AccessProg Bool :=
  match input.replayKey with
  | none => pure false
  | some key => query fun s => s.events.exist fun ev => ev.idempotencyKey == some key

def entitlementUnavailable (input : AccessInput) : DomainError :=
  ⟨input.unavailableCode.getD "entitlement_access_unavailable", 409,
    input.unavailableMessage.getD "The delivery can no longer be accessed"⟩

def consumeEntitlementAccess (u : AccessUse) : AccessProg Unit := do
  let replay ← replayed u.input
  if replay then pure ()
  else
    let results ← tryCatch (do
        let results ← commit (.consume u) (consumeStatements u)
        pure (some results))
      fun error => do
        let replay ← replayed u.input
        if replay then pure none else .fail error
    match results with
    | none => pure ()
    | some results => if results[0]? = some 1 then pure () else throw (entitlementUnavailable u.input)

/-- The refund of the last grant; the counts are the ones that it has read. -/
def revokeEntitlement (entitlementId : Id) (usageCount accessCount : Nat) (now : Time) : Stmt AccessBooks :=
  update AccessBooks.entitlementsT (fun _ e => e.id == entitlementId) fun _ e =>
    rebuiltEntitlement [] usageCount accessCount now e

/-- `status = 'active' AND expires_at IS NOT NULL AND expires_at <= ?`. -/
def expireEntitlements (now : Time) : Stmt AccessBooks :=
  update AccessBooks.entitlementsT
    (fun _ e => e.status == .active && e.expiresAt.any fun t => decide (t ≤ now)) fun _ e => { e with status := .expired }

def AccessUseCall.code (c : AccessUseCall) : AccessProg AccessUseCall :=
  match c with
  | .consume u => do
    consumeEntitlementAccess u
    pure c
  | .revoke entitlementId usageCount accessCount now => do
    let _ ← commit c [revokeEntitlement entitlementId usageCount accessCount now]
    pure c
  | .expire now => do
    let _ ← commit c [expireEntitlements now]
    pure c

/-! ## The books -/

def AccessBooks.accessCount (s : AccessBooks) (id : Id) : Nat := ((s.entitlements.get? id).map (·.accessCount)).getD 0

def AccessBooks.accessEvents (s : AccessBooks) (id : Id) : Nat := s.events.count fun ev => ev.entitlementId == id

def WithinLimits (s : AccessBooks) : Prop := ∀ e ∈ s.entitlements.rows, ∀ l ∈ e.accessLimit, e.accessCount ≤ l

/-- No count has passed its limit, and each has grown by one for each new event. -/
structure AccessUseKept (start s : AccessBooks) : Prop where
  within : WithinLimits s
  counted : ∀ id, s.accessCount id + start.accessEvents id = start.accessCount id + s.accessEvents id

/-- A use is counted once, on an entitlement that it may use, and has its event. -/
structure Consumed (u : AccessUse) (s t : AccessBooks) : Prop where
  usable : ∃ e ∈ s.entitlements.rows, e.id = u.input.entitlementId ∧ (e.status = .active ∨ e.status = .exhausted) ∧
    (∀ expiresAt ∈ e.expiresAt, u.now < expiresAt) ∧ ∀ l ∈ e.accessLimit, e.accessCount < l
  rows : t.entitlements.rows =
    s.entitlements.rows.map fun e => if e.id = u.input.entitlementId then e.use else e
  events : t.events.rows = s.events.rows ++ [u.event]

variable {now : Time} {u : AccessUse} {s start t : AccessBooks} {c n : Nat}

theorem usable_iff {e : CustomerEntitlement} : e.usable now = true ↔
    (e.status = .active ∨ e.status = .exhausted) ∧ (∀ expiresAt ∈ e.expiresAt, now < expiresAt) ∧
      ∀ l ∈ e.accessLimit, e.accessCount < l := by
  unfold CustomerEntitlement.usable
  rw [Bool.and_eq_true, Bool.and_eq_true, Bool.or_eq_true, beq_iff_eq, beq_iff_eq, Option.all_eq_true,
    Option.all_eq_true, and_assoc]
  simp only [decide_eq_true_eq]
  exact Iff.rfl

theorem consume_cases {ns : List Nat} (h : batch (consumeStatements u) 0 s = .ok (ns, t)) :
    t = s ∧ ns[0]? = some 0 ∨ Consumed u s t ∧ ns[0]? = some 1 := by
  obtain ⟨n, m, ns', hupdate, hrest, rfl⟩ := batch_cons_ok h
  obtain ⟨n', hinsert, rfl⟩ := batch_single_ok hrest
  have hcases := update_key_cases (T := AccessBooks.entitlementsT) (k := u.input.entitlementId)
    (q := fun e => e.usable u.now) (fun _ => rfl) hupdate
  obtain ⟨-, events, hevents, rfl⟩ := insert_abort_ok (onChanges_ok hinsert)
  rcases hcases with ⟨rfl, -, rfl⟩ | ⟨rfl, e, rows, he, husable, hrows, rfl⟩
  · refine .inl ⟨?_, rfl⟩
    have hsame : events = s.events := ext_rows (hevents.trans (append_nil _))
    rw [hsame]
    rfl
  · exact .inr ⟨⟨⟨e, get?_mem he, get?_key he, (usable_iff).mp husable⟩, hrows, hevents⟩, rfl⟩

theorem consumed_accessCount (h : Consumed u s t) (id : Id) :
    t.accessCount id = s.accessCount id + if u.input.entitlementId = id then 1 else 0 := by
  have hid : ∀ e : CustomerEntitlement,
      KeyedRow.key (if e.id = u.input.entitlementId then e.use else e) = KeyedRow.key e := by
    intro e
    split <;> rfl
  rw [AccessBooks.accessCount, get?_map h.rows hid id, AccessBooks.accessCount, Option.map_map]
  obtain ⟨e, he, heid, -⟩ := h.usable
  cases hget : s.entitlements.get? id with
  | none =>
    have hne : u.input.entitlementId ≠ id := by
      rintro rfl
      have hsome : s.entitlements.get? e.id = some e := mem_get? he
      rw [heid, hget] at hsome
      cases hsome
    rw [if_neg hne]
    rfl
  | some r =>
    have hr : r.id = id := get?_key hget
    show (if r.id = u.input.entitlementId then r.use else r).accessCount = r.accessCount + _
    by_cases hid' : u.input.entitlementId = id
    · rw [if_pos hid', if_pos (hr.trans hid'.symm)]
      rfl
    · rw [if_neg hid', if_neg fun h => hid' (h.symm.trans hr)]
      rfl

theorem consumed_kept (hs : AccessUseKept start s) (h : Consumed u s t) : AccessUseKept start t where
  within e he l hl := by
    rw [h.rows] at he
    obtain ⟨x, hx, rfl⟩ := mem_map.mp he
    obtain ⟨r, hr, hrid, -, -, hleft⟩ := h.usable
    split at hl
    · rename_i hxid
      obtain rfl := eq_of_key hx hr (hxid.trans hrid.symm)
      rw [if_pos hxid]
      exact hleft l hl
    · rename_i hxid
      rw [if_neg hxid]
      exact hs.within x hx l hl
  counted id := by
    have hevents : t.accessEvents id = s.accessEvents id + if u.input.entitlementId = id then 1 else 0 := by
      show t.events.rows.countP _ = s.events.rows.countP _ + _
      rw [h.events, countP_append, countP_singleton]
      simp only [AccessUse.event, beq_iff_eq]
    have hcounted := hs.counted id
    rw [consumed_accessCount h, hevents]
    omega

/-- An UPDATE that leaves the counts alone, and the limits or lifts them. -/
structure CountsSame (s t : AccessBooks) : Prop where
  events : t.events = s.events
  accessCount : ∀ id, t.accessCount id = s.accessCount id
  limits : ∀ e ∈ t.entitlements.rows, ∀ l ∈ e.accessLimit, ∃ x ∈ s.entitlements.rows,
    e.accessCount = x.accessCount ∧ x.accessLimit = some l

theorem CountsSame.kept (h : CountsSame s t) (hs : AccessUseKept start s) : AccessUseKept start t where
  within e he l hl := by
    obtain ⟨x, hx, hcount, hlimit⟩ := h.limits e he l hl
    rw [hcount]
    exact hs.within x hx l hlimit
  counted id := by
    have hevents : t.accessEvents id = s.accessEvents id := by
      unfold AccessBooks.accessEvents
      rw [h.events]
    rw [h.accessCount, hevents]
    exact hs.counted id

theorem update_countsSame {p : CustomerEntitlement → Bool} {f : CustomerEntitlement → CustomerEntitlement}
    (hid : ∀ e, (f e).id = e.id) (hcount : ∀ e, (f e).accessCount = e.accessCount)
    (hlimit : ∀ e, (f e).accessLimit = none ∨ (f e).accessLimit = e.accessLimit)
    (h : update AccessBooks.entitlementsT (fun _ e => p e) (fun _ e => f e) c s = .ok (n, t)) : CountsSame s t := by
  obtain ⟨-, rows, hrows, rfl⟩ := update_ok h
  refine ⟨rfl, fun id => ?_, fun e he l hl => ?_⟩
  · have hkey : ∀ e : CustomerEntitlement, KeyedRow.key (if p e then f e else e) = KeyedRow.key e := by
      intro e
      split
      · exact hid e
      · rfl
    show ((rows.get? id).map (·.accessCount)).getD 0 = ((s.entitlements.get? id).map (·.accessCount)).getD 0
    rw [get?_map hrows hkey id, Option.map_map]
    refine congrArg (Option.getD · 0) (congrFun (congrArg Option.map (funext fun e => ?_)) _)
    show (if p e then f e else e).accessCount = e.accessCount
    split
    · exact hcount e
    · rfl
  · obtain ⟨x, hx, rfl⟩ := mem_map.mp (hrows ▸ he)
    refine ⟨x, hx, ?_⟩
    split at hl
    · rename_i hp
      rw [if_pos hp]
      refine ⟨hcount x, ?_⟩
      rcases hlimit x with hnone | hsame
      · rw [hnone] at hl
        cases hl
      · exact hsame.symm.trans hl
    · rename_i hp
      rw [if_neg hp]
      exact ⟨rfl, hl⟩

theorem revokeEntitlement_countsSame {entitlementId : Id} {usageCount accessCount : Nat}
    (h : revokeEntitlement entitlementId usageCount accessCount now c s = .ok (n, t)) : CountsSame s t :=
  update_countsSame (f := fun e => rebuiltEntitlement [] usageCount accessCount now e) (fun _ => rfl) (fun _ => rfl)
    (fun _ => .inl rfl) h

theorem expireEntitlements_countsSame (h : expireEntitlements now c s = .ok (n, t)) : CountsSame s t :=
  update_countsSame (f := fun e => { e with status := .expired }) (fun _ => rfl) (fun _ => rfl) (fun _ => .inr rfl) h

/-! ## The runs -/

def AccessStep (x : AccessUseCall) (s t : AccessBooks) (k : AccessProg AccessUseCall) : Prop :=
  match x with
  | .consume u => Consumed u s t ∧ k = .done x
  | _ => CountsSame s t

def accessUseSpec (start : AccessBooks) : Spec AccessBooks AccessUseCall Empty :=
  .ofRel (AccessUseKept start) anySite (fun _ _ => True) (fun s t => s.events.rows ⊆ t.events.rows) (fun _ => trivial)
    (fun _ => List.Subset.refl _) fun _ _ _ h h' => List.Subset.trans h h'

theorem accessSpec_admits (ht : AccessUseKept start t) (hevents : s.events.rows ⊆ t.events.rows) :
    (accessUseSpec start).Admits ∅ ∅ s t :=
  Spec.admits_ofRel ht trivial fun _ => hevents

theorem countsSame_admits (h : CountsSame s t) (hs : AccessUseKept start s) : (accessUseSpec start).Admits ∅ ∅ s t :=
  accessSpec_admits (h.kept hs) (h.events ▸ List.Subset.refl _)

theorem replayed_reads (input : AccessInput) : Prog.Reads (fun _ => True) (replayed input) := by
  unfold replayed
  cases input.replayKey with
  | none => trivial
  | some key => exact Prog.reads_query _

theorem consume_each (start : AccessBooks) (u : AccessUse) (s : AccessBooks) :
    Each (accessUseSpec start) AccessStep (AccessUseCall.code (.consume u)) s := by
  refine bind (reads (replayed_reads u.input) fun replay t _ _ => ?_) fun _ _ _ => done _
  split
  · exact done _
  · refine bind (tryCatch (bind (attempt fun t _ hi _ ns v hb => ?_) fun _ _ _ => done _) ?_) ?_
    · rcases consume_cases hb with ⟨hsame, -⟩ | ⟨hconsumed, hone⟩
      · exact .inl hsame
      · refine .inr ⟨accessSpec_admits (consumed_kept hi hconsumed) ?_, hconsumed, ?_⟩
        · rw [hconsumed.events]
          exact subset_append_left _ _
        · -- what is left of the call is its answer
          show ((if ns[0]? = some 1 then (pure () : AccessProg Unit) else throw (entitlementUnavailable u.input)) >>=
            fun _ => (pure (.consume u) : AccessProg AccessUseCall)) = _
          rw [if_pos hone]
          rfl
    · intro error t _
      refine reads (replayed_reads u.input) fun replay v _ _ => ?_
      split
      · exact done _
      · exact fail _
    · intro results t _
      cases results with
      | none => exact done _
      | some ns =>
        dsimp only
        split
        · exact done _
        · exact throw _

theorem accessCall_each (start : AccessBooks) (c : AccessUseCall) (s : AccessBooks) :
    Each (accessUseSpec start) AccessStep c.code s := by
  cases c with
  | consume u => exact consume_each start u s
  | revoke entitlementId usageCount accessCount now =>
    refine bind (commit fun t _ hi _ ns v hb => ?_) fun _ _ _ => done _
    obtain ⟨n, hupdate, -⟩ := batch_single_ok hb
    have hsame := revokeEntitlement_countsSame hupdate
    exact ⟨countsSame_admits hsame hi, hsame⟩
  | expire now =>
    refine bind (commit fun t _ hi _ ns v hb => ?_) fun _ _ _ => done _
    obtain ⟨n, hupdate, -⟩ := batch_single_ok hb
    have hsame := expireEntitlements_countsSame hupdate
    exact ⟨countsSame_admits hsame hi, hsame⟩

def Used (c : AccessUseCall) (s : AccessBooks) : Prop :=
  ∀ u, c = .consume u → u.event ∈ s.events.rows ∨
    ∃ key ∈ u.input.replayKey, ∃ ev ∈ s.events.rows, ev.idempotencyKey = some key

theorem replayed_answers (start : AccessBooks) (input : AccessInput) (s : AccessBooks) :
    Answers (accessUseSpec start) (fun replay t => replay = true →
      ∃ key ∈ input.replayKey, ∃ ev ∈ t.events.rows, ev.idempotencyKey = some key) (replayed input) s := by
  unfold replayed
  cases hkey : input.replayKey with
  | none => exact Answers.done nofun
  | some key =>
    refine Answers.query (k := .done) fun t _ _ => Answers.done fun hreplay => ?_
    obtain ⟨ev, hev, heq⟩ := exist_iff.mp hreplay
    exact ⟨key, rfl, ev, hev, eq_of_beq heq⟩

theorem consume_answers (start : AccessBooks) (u : AccessUse) (s : AccessBooks) :
    Answers (accessUseSpec start) (fun _ t => Used (.consume u) t) (consumeEntitlementAccess u) s := by
  have hreplay : ∀ {t : AccessBooks}, (∃ key ∈ u.input.replayKey, ∃ ev ∈ t.events.rows, ev.idempotencyKey = some key) →
      Used (.consume u) t := by
    rintro t h _ ⟨⟩
    exact .inr h
  refine Answers.bind (replayed_answers start u.input s) fun replay t _ hM => ?_
  cases replay with
  | true => exact Answers.done (hreplay (hM rfl))
  | false =>
    let M : Option (List Nat) → AccessBooks → Prop := fun results v =>
      results = none ∨ results.bind (·[0]?) = some 1 → Used (.consume u) v
    refine Answers.bind (M := M) (Answers.tryCatch (Answers.commit fun v _ hi _ ns w hb => ?_) fun error v _ => ?_) ?_
    · rcases consume_cases hb with ⟨rfl, hzero⟩ | ⟨hconsumed, -⟩
      · refine ⟨Spec.admits_refl _ hi, Answers.done ?_⟩
        rintro (h | h)
        · cases h
        · rw [Option.bind_some, hzero] at h
          cases h
      · have hevents : v.events.rows ⊆ w.events.rows := by
          rw [hconsumed.events]
          exact subset_append_left _ _
        refine ⟨accessSpec_admits (consumed_kept hi hconsumed) hevents, Answers.done fun _ => ?_⟩
        rintro _ ⟨⟩
        rw [hconsumed.events]
        exact .inl (mem_append_right _ mem_cons_self)
    · refine Answers.bind (replayed_answers start u.input v) fun replay v' _ hM' => ?_
      cases replay with
      | true => exact Answers.done fun _ => hreplay (hM' rfl)
      | false => exact Answers.fail _
    · intro results v _ hused
      cases results with
      | none => exact Answers.done (hused (.inl rfl))
      | some ns =>
        dsimp only
        split
        · rename_i hone
          exact Answers.done (hused (.inr hone))
        · exact Answers.throw _

theorem accessCall_answers (start : AccessBooks) (c : AccessUseCall) (s : AccessBooks) :
    Answers (accessUseSpec start) Used c.code s := by
  cases c with
  | consume u => exact Answers.bind (consume_answers start u s) fun _ _ _ hused => Answers.done hused
  | revoke entitlementId usageCount accessCount now =>
    refine Answers.commit fun t _ hi _ ns v hb => ?_
    obtain ⟨n, hupdate, -⟩ := batch_single_ok hb
    exact ⟨countsSame_admits (revokeEntitlement_countsSame hupdate) hi, Answers.done fun _ hc => by cases hc⟩
  | expire now =>
    refine Answers.commit fun t _ hi _ ns v hb => ?_
    obtain ⟨n, hupdate, -⟩ := batch_single_ok hb
    exact ⟨countsSame_admits (expireEntitlements_countsSame hupdate) hi, Answers.done fun _ hc => by cases hc⟩

/-- In every run: no count passes its limit, and each grows by one for each event; a key has one event at most; an
answered use has its event or its key has one; and the one step of a use that writes counts it, on an entitlement that
is neither over nor used up, and is its last. -/
theorem access_counted {start : AccessBooks} (hs : WithinLimits start)
    {w : World AccessBooks AccessUseCall DomainError AccessUseCall} (h : Runs AccessUseCall.code anySite ⟨start, []⟩ w) :
    AccessUseKept start w.db ∧ (∀ key, (w.db.events.rows.filter fun ev => ev.idempotencyKey == some key).length ≤ 1) ∧
      (∀ c, .done c ∈ w.calls → Used c w.db) ∧
      ∀ w', Step AccessUseCall.code anySite w w' → w'.db = w.db ∨
        ∃ i x k, w.site i = some x ∧ w'.calls = w.calls.set i k ∧ AccessStep x w.db w'.db k := by
  have hstart : AccessUseKept start start := ⟨hs, fun _ => rfl⟩
  have heach : ∀ c s, (accessUseSpec start).inv s → Each (accessUseSpec start) AccessStep (AccessUseCall.code c) s :=
    fun c s _ => accessCall_each start c s
  have hanswers := Runs.answers (S := accessUseSpec start) (Q := Used) (fun c s t hst hused u hu =>
      (hused u hu).imp (fun hev => hst hev) fun ⟨key, hkey, ev, hev, heq⟩ => ⟨key, hkey, ev, hst hev, heq⟩)
    (fun c s _ => accessCall_answers start c s) hstart h
  refine ⟨hanswers.1, fun key => ?_, hanswers.2, fun w' hstep => ?_⟩
  · have hpairs := (w.db.events.distinct.filter fun ev => ev.idempotencyKey == some key)
    have hall : ∀ ev ∈ w.db.events.rows.filter (fun ev => ev.idempotencyKey == some key), ev.idempotencyKey = some key :=
      fun ev hev => eq_of_beq (mem_filter.mp hev).2
    cases hrows : w.db.events.rows.filter fun ev => ev.idempotencyKey == some key with
    | nil => exact Nat.zero_le _
    | cons a rest =>
      cases rest with
      | nil => exact le_rfl
      | cons b rest =>
        rw [hrows] at hpairs hall
        have hclash := rel_of_pairwise_cons hpairs mem_cons_self
        have hab : Row.clash a b = true := by
          show (a.id == b.id || a.idempotencyKey.isSome && a.idempotencyKey == b.idempotencyKey) = true
          rw [hall a mem_cons_self, hall b (mem_cons_of_mem _ mem_cons_self)]
          simp
        rw [hab] at hclash
        cases hclash
  · rcases Runs.stepped (S := accessUseSpec start) heach hstart h hstep with hsame | ⟨i, x, k, hsite, hcalls, -, hP⟩
    · exact .inl hsame
    · exact .inr ⟨i, x, k, hsite, hcalls, hP⟩

/-! ## Two uses of one key -/

def downloads : AccessBooks where
  entitlements := .of [{ id := 1, userId := some 3, orderItemId := 5, sellableItemId := 7, status := .active
                         accessLimit := some 2, expiresAt := some 100 }]
  events := .empty

def download (eventId : Id) : AccessUseCall :=
  .consume ⟨{ entitlementId := 1, assetType := .downloadAsset, assetId := 9, eventType := .downloaded
              actorType := .customer, idempotencyKey := some "download:9" }, eventId, 50⟩

def twiceAtOnce : World AccessBooks AccessUseCall DomainError AccessUseCall :=
  World.exec AccessUseCall.code anySite ⟨downloads, []⟩
    [.start (download 10), .start (download 11), .run 0, .run 1, .run 0, .run 1, .run 1]

theorem access_counted_twice : twiceAtOnce.db.accessCount 1 = 1 ∧ twiceAtOnce.Quiescent ∧
    AccessUseKept downloads twiceAtOnce.db ∧ ∀ c, .done c ∈ twiceAtOnce.calls → Used c twiceAtOnce.db := by
  have hwithin : WithinLimits downloads := by
    unfold WithinLimits
    decide
  obtain ⟨hkept, -, hused, -⟩ := access_counted hwithin (World.exec_runs AccessUseCall.code anySite _ _ : Runs _ _ _ twiceAtOnce)
  exact ⟨by decide, by decide, hkept, hused⟩

end Gmshop
