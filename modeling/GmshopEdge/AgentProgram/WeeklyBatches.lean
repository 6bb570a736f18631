import GmshopEdge.AgentProgram.Withdrawals
import GmshopEdge.Lib.Alone
import GmshopEdge.Lib.Lists
import GmshopEdge.Telegram.OwnerActions

/-!
# The Monday summary of withdrawals

`runWithdrawalAlerts` (`agent-program/server/withdrawal-alerts.ts`) with `proposeBatch` and `proposeOwnerAction`: on
the settlement day the pending withdrawals that no open request or look-up counts yet go out in batches, one message
with buttons each. A failure gives the day back, and the pass ten minutes later tries again.

The request is written before its message is sent, so a failed send leaves a request that counts and that nobody sees;
the next pass skips its withdrawals and answers that it ran. Where the requests that count are in the chat, every
pending withdrawal is shown, in one message a day (withdrawals_shown_once).

* The partner's answer and what becomes of each message are arguments of a pass.
* The texts and the alerts about a failed or recovered pull are left out.

A request also remembers whether its message is in the chat; nothing reads that.
-/

namespace Gmshop

open List Sql Stmt Prog

/-! ## Tables -/

/-- The keys of `system_settings` that the pass uses. -/
inductive AlertSetting where
  | lastDay
  | lastAttempt
  | failureDay
  deriving DecidableEq

inductive WithdrawalAsk where
  | batchPaid (withdrawalIds : List Id)
  | paid (withdrawalId : Id)
  | paidManual (withdrawalId : Id)

def WithdrawalAsk.withdrawalIds : WithdrawalAsk → List Id
  | .batchPaid ids => ids
  | .paid id => [id]
  | .paidManual id => [id]

def WithdrawalAsk.isBatch : WithdrawalAsk → Bool
  | .batchPaid _ => true
  | _ => false

/-- A row of `owner_action_requests`. -/
structure WithdrawalRequest where
  id : Id
  ask : WithdrawalAsk
  status : ActionStatus
  expiresAt : Time
  createdAt : Time
  messageId : Option Nat := none
  posted : Bool := false

instance : KeyedRow WithdrawalRequest where
  clash a b := a.id == b.id
  key := WithdrawalRequest.id
  clash_of_key a b h := by simp [h]

structure WeeklyAlerts where
  settings : AlertSetting → Option Nat
  requests : Table WithdrawalRequest
  jobs : Table VerifyJob

def WeeklyAlerts.requestsT : TableRef WeeklyAlerts WithdrawalRequest :=
  ⟨WeeklyAlerts.requests, fun s t => { s with requests := t }, fun _ _ => rfl⟩

inductive AlertSite where
  | claim (key : AlertSetting)
  | release
  | propose (id : Id)
  | send (id : Id)
  | setMessage (id : Id)

abbrev AlertProg := Prog WeeklyAlerts AlertSite OwnerAlertError

/-! ## Clock and settings -/

def beijingDay (now : Time) : Nat := (now + 8 * 3600000) / 86400000

def beijingHour (now : Time) : Nat := (now + 8 * 3600000) % 86400000 / 3600000

def beijingWeekday (now : Time) : Nat := (beijingDay now + 4) % 7

def settingIs (key : AlertSetting) (value : Nat) : AlertProg Bool := Prog.query fun s => s.settings key == some value

def WeeklyAlerts.setting (s : WeeklyAlerts) (key : AlertSetting) (value : Option Nat) : WeeklyAlerts :=
  { s with settings := fun k => if k = key then value else s.settings k }

def claimPeriod (key : AlertSetting) (period : Nat) : AlertProg Bool :=
  .act (some (.claim key)) Bool
    (fun s => if s.settings key = some period then (false, s) else (true, s.setting key (some period))) .done

def claimInterval (key : AlertSetting) (now : Time) (intervalMs : Nat) : AlertProg Bool :=
  .act (some (.claim key)) Bool (fun s => if (s.settings key).all fun last => decide (last + intervalMs ≤ now) then
      (true, s.setting key (some now)) else (false, s)) .done

/-! ## Proposing -/

inductive Posting where
  /-- The channel's settings cannot be read. -/
  | unresolved
  /-- Without a working button webhook the text goes out as a plain alert. -/
  | plain (sent : Bool)
  | posted (messageId : Nat)
  /-- The message is in the chat, the answer is lost. -/
  | unheard
  | unsent

def deliveryFailed : OwnerAlertError := ⟨"telegram_alert_delivery_failed"⟩

def showMessage (id : Id) : AlertProg Unit :=
  (Prog.commit (.send id)
    [update WeeklyAlerts.requestsT (fun _ r => r.id == id) fun _ r => { r with posted := true }]).void

/-- `proposeOwnerAction` for a request about withdrawals. -/
def WeeklyAlerts.proposeOwnerAction (id : Id) (ask : WithdrawalAsk) (now : Time) (ttlMs : Nat) (posting : Posting) :
    AlertProg (Option Id) := do
  match posting with
  | .unresolved => Prog.throw ⟨"telegram_alert_configuration_missing"⟩
  | .plain sent => if sent then .done none else Prog.throw deliveryFailed
  | _ =>
    let _ ← Prog.commit (.propose id) [insert WeeklyAlerts.requestsT .abort fun _ =>
      [{ id := id, ask := ask, status := .pending, expiresAt := now + ttlMs, createdAt := now }]]
    match posting with
    | .posted messageId =>
      showMessage id
      let _ ← Prog.commit (.setMessage id) [update WeeklyAlerts.requestsT (fun _ r => r.id == id)
        fun _ r => { r with messageId := some messageId }]
      .done (some id)
    | .unheard =>
      showMessage id
      Prog.throw deliveryFailed
    | _ => Prog.throw deliveryFailed

def alertHour : Nat := 10
def settlementWeekday : Nat := 1
def batchTtlMs : Nat := 6 * 86400000
def retryMs : Nat := 10 * 60000
def batchSize : Nat := 20

structure AlertInput where
  /-- The partner's token is set. -/
  configured : Bool := true
  now : Time
  /-- The partner's answer; none when the pull fails. -/
  pull : Option (List Withdrawal)
  /-- What becomes of the messages of the pass, and the ids of their requests. -/
  postings : Nat → Posting
  uuids : Nat → Id

def proposeBatch (i : AlertInput) (index : Nat) (chunk : List Withdrawal) : AlertProg Unit :=
  (WeeklyAlerts.proposeOwnerAction (i.uuids index) (.batchPaid (chunk.map (·.id))) i.now batchTtlMs
    (i.postings index)).void

def proposeBatches (i : AlertInput) : Nat → List (List Withdrawal) → AlertProg Unit
  | _, [] => .done ()
  | index, chunk :: chunks => do
    proposeBatch i index chunk
    proposeBatches i (index + 1) chunks

/-! ## The pass -/

def WithdrawalRequest.isOpen (now : Time) (r : WithdrawalRequest) : Bool :=
  (r.status == .pending || r.status == .processing) && decide (now < r.expiresAt)

def VerifyJob.isOpen (j : VerifyJob) : Bool := j.status == .queued || j.status == .running

def WeeklyAlerts.known (s : WeeklyAlerts) (now : Time) : List Id :=
  (s.requests.rows.filter (·.isOpen now)).flatMap (·.ask.withdrawalIds) ++
    (s.jobs.rows.filter (·.isOpen)).map (·.target.id)

/-- `batchPayloadSchema`. -/
def WithdrawalAsk.parses : WithdrawalAsk → Bool
  | .batchPaid ids => decide (1 ≤ ids.length) && decide (ids.length ≤ 200)
  | _ => true

/-- One account's withdrawals stay in the same message, at most about `batchSize` in one. -/
def packStep (packed : List (List Withdrawal) × List Withdrawal) (group : List Withdrawal) :
    List (List Withdrawal) × List Withdrawal :=
  if packed.2 ≠ [] ∧ batchSize < packed.2.length + group.length then (packed.1 ++ [packed.2], group)
  else (packed.1, packed.2 ++ group)

def chunksOf (fresh : List Withdrawal) : List (List Withdrawal) :=
  let packed := (byAccount fresh).foldl packStep ([], [])
  if packed.2 ≠ [] then packed.1 ++ [packed.2] else packed.1

def freshOf (known : List Id) (withdrawals : List Withdrawal) : List Withdrawal :=
  withdrawals.filter fun w => w.status == .pending && !known.contains w.id

inductive AlertReply where
  | unconfigured
  | notSettlementDay
  | waiting
  | done
  | retryWait
  | failed
  | ran (pending proposed : Nat)
  deriving DecidableEq

def proposeFresh (i : AlertInput) (pending : Nat) (fresh : List Withdrawal) : AlertProg AlertReply :=
  Prog.tryCatch
    (do
      proposeBatches i 0 (chunksOf fresh)
      .done (.ran pending fresh.length))
    fun _ => do
      Prog.effect .release fun s => s.setting .lastDay none
      .done .failed

def runWithdrawalAlerts (i : AlertInput) : AlertProg AlertReply := do
  if !i.configured then .done .unconfigured
  else if beijingWeekday i.now ≠ settlementWeekday then .done .notSettlementDay
  else if beijingHour i.now < alertHour then .done .waiting
  else
    let ended ← settingIs .lastDay (beijingDay i.now)
    if ended then .done .done
    else
      let due ← claimInterval .lastAttempt i.now retryMs
      if !due then .done .retryWait
      else
        match i.pull with
        | none =>
          let _ ← claimPeriod .failureDay (beijingDay i.now)
          .done .failed
        | some withdrawals =>
          let claimed ← claimPeriod .lastDay (beijingDay i.now)
          if !claimed then .done .done
          else
            let open_ ← Prog.query fun s => s.requests.rows.filter (·.isOpen i.now)
            if open_.any fun r => !r.ask.parses then Prog.throw ⟨"invalid_payload"⟩
            else
              let known ← Prog.query fun s => s.known i.now
              let fresh := freshOf known withdrawals
              if fresh = [] then .done (.ran withdrawals.length 0)
              else proposeFresh i withdrawals.length fresh

/-! ## The chunks -/

theorem packStep_flatten (packed : List (List Withdrawal) × List Withdrawal) (groups : List (List Withdrawal)) :
    (groups.foldl packStep packed).1.flatten ++ (groups.foldl packStep packed).2 =
      packed.1.flatten ++ packed.2 ++ groups.flatten := by
  induction groups generalizing packed with
  | nil => rw [foldl_nil, flatten_nil, append_nil]
  | cons group groups ih =>
    rw [foldl_cons, ih, flatten_cons, ← append_assoc]
    unfold packStep
    split
    · rw [flatten_append, flatten_singleton]
    · rw [append_assoc _ packed.2 group]

theorem chunksOf_perm (fresh : List Withdrawal) : (chunksOf fresh).flatten.Perm fresh := by
  have hpacked := packStep_flatten ([], []) (byAccount fresh)
  rw [flatten_nil, nil_append, nil_append] at hpacked
  have hflat : (chunksOf fresh).flatten = (byAccount fresh).flatten := by
    rw [← hpacked]
    unfold chunksOf
    dsimp only
    split
    · rw [flatten_append, flatten_singleton]
    · next hnone =>
      rw [not_not.mp hnone, append_nil]
  rw [hflat]
  exact Lists.groups_perm Withdrawal.account fresh

def messageIds (chunks : List (List Withdrawal)) : List (List Id) := chunks.map fun chunk => chunk.map (·.id)

theorem messageIds_nodup {fresh : List Withdrawal} (h : (fresh.map (·.id)).Nodup) :
    (messageIds (chunksOf fresh)).flatten.Nodup := by
  unfold messageIds
  rw [← map_flatten]
  exact ((chunksOf_perm fresh).map _).nodup_iff.mpr h

variable {id : Id} {r : WithdrawalRequest} {α : Type} {key : AlertSetting} {now : Time}
  {Q : Except (Failure OwnerAlertError) α → WeeklyAlerts → Prop} {k : Bool → AlertProg α}

theorem mem_messageIds {fresh : List Withdrawal} :
    (∃ ids ∈ messageIds (chunksOf fresh), id ∈ ids) ↔ ∃ w ∈ fresh, w.id = id := by
  rw [← mem_flatten]
  unfold messageIds
  rw [← map_flatten, ((chunksOf_perm fresh).map _).mem_iff, mem_map]

/-! ## Proposing -/

structure Proposed (i : AlertInput) (messages : List (List Id)) (added : List WithdrawalRequest) (s t : WeeklyAlerts) :
    Prop where
  requests : t.requests.rows = s.requests.rows ++ added
  asks : (added.map fun r => r.ask.withdrawalIds).Sublist messages
  batch : ∀ r ∈ added, r.ask.isBatch = true ∧ r.createdAt = i.now ∧ r.isOpen i.now = true
  jobs : t.jobs = s.jobs

def AllPosted (i : AlertInput) (index : Nat) (messages : List (List Id)) (added : List WithdrawalRequest) : Prop :=
  (∀ k < messages.length, i.postings (index + k) ≠ .plain true) →
    ∀ ids ∈ messages, ∃ r ∈ added, r.posted = true ∧ r.ask.withdrawalIds = ids

/-- What proposing the messages from `index` on comes to. -/
def ProposeLeaves {α : Type} (i : AlertInput) (index : Nat) (messages : List (List Id)) (s : WeeklyAlerts)
    (r : Except (Failure OwnerAlertError) α) (t : WeeklyAlerts) : Prop :=
  ∃ added, Proposed i messages added s t ∧ ((∃ a, r = .ok a) → AllPosted i index messages added)

section Propose

variable {i : AlertInput} {s t u : WeeklyAlerts} {messages : List (List Id)} {added : List WithdrawalRequest}

theorem Proposed.start (i : AlertInput) (messages : List (List Id)) (s : WeeklyAlerts) : Proposed i messages [] s s :=
  ⟨(append_nil _).symm, nil_sublist _, fun _ hr => by (cases hr), rfl⟩

section

variable (h : Proposed i messages added s t)
include h

theorem Proposed.mono {all : List (List Id)} (hall : messages.Sublist all) :
    Proposed i all added s t := ⟨h.requests, h.asks.trans hall, h.batch, h.jobs⟩

theorem Proposed.settings {s' t' : WeeklyAlerts} (hs : s'.requests = s.requests) (ht : t'.requests = t.requests)
    (hsjobs : s'.jobs = s.jobs) (htjobs : t'.jobs = t.jobs) : Proposed i messages added s' t' := by
  refine ⟨?_, h.asks, h.batch, ?_⟩
  · rw [hs, ht, h.requests]
  · rw [hsjobs, htjobs, h.jobs]

theorem Proposed.append {more : List (List Id)} {rows : List WithdrawalRequest}
    (hmore : Proposed i more rows t u) : Proposed i (messages ++ more) (added ++ rows) s u := by
  refine ⟨?_, ?_, ?_, hmore.jobs.trans h.jobs⟩
  · rw [hmore.requests, h.requests, append_assoc]
  · rw [map_append]
    exact h.asks.append hmore.asks
  · intro r hr
    rcases mem_append.mp hr with hr | hr
    · exact h.batch r hr
    · exact hmore.batch r hr

end

theorem update_request_rows {f : WithdrawalRequest → WithdrawalRequest} {old : List WithdrawalRequest}
    {ns : List Nat} (hrows : s.requests.rows = old ++ [r]) (hr : r.id = id)
    (h : batch [update WeeklyAlerts.requestsT (fun _ r => r.id == id) fun _ => f] 0 s = .ok (ns, t)) :
    t.requests.rows = old ++ [f r] ∧ t.jobs = s.jobs := by
  obtain ⟨n, hst, -⟩ := batch_single_ok h
  obtain ⟨-, table, ht, rfl⟩ := update_ok hst
  refine ⟨?_, rfl⟩
  have hold : ∀ x ∈ old, x.id ≠ r.id := by
    intro x hx heq
    have hpair := s.requests.distinct
    rw [hrows] at hpair
    have hclash : (x.id == r.id) = false := (pairwise_append.mp hpair).2.2 x hx r (mem_singleton_self r)
    rw [heq, beq_self_eq_true] at hclash
    cases hclash
  show table.rows = _
  rw [ht, show (WeeklyAlerts.requestsT.get s).rows = s.requests.rows from rfl, hrows, map_append,
    map_singleton, if_pos (beq_iff_eq.mpr hr)]
  refine congrArg (· ++ _) ?_
  refine (map_congr_left fun x hx => ?_).trans (map_id old)
  rw [if_neg fun hid => hold x hx ((eq_of_beq hid).trans hr.symm)]
  rfl

def AlertInput.request (i : AlertInput) (index : Nat) (ids : List Id) : WithdrawalRequest where
  id := i.uuids index
  ask := .batchPaid ids
  status := .pending
  expiresAt := i.now + batchTtlMs
  createdAt := i.now

theorem Proposed.one {index : Nat} {ids : List Id} (hrows : t.requests.rows = s.requests.rows ++ [r])
    (hjobs : t.jobs = s.jobs) (hr : { r with messageId := .none, posted := false } = i.request index ids) :
    Proposed i [ids] [r] s t := by
  have hask : r.ask = .batchPaid ids := congrArg WithdrawalRequest.ask hr
  refine ⟨hrows, ?_, fun x hx => ?_, hjobs⟩
  · rw [map_singleton, hask]
    exact List.Sublist.refl _
  · rw [mem_singleton.mp hx]
    refine ⟨by rw [hask]; rfl, congrArg WithdrawalRequest.createdAt hr, ?_⟩
    have hstatus : r.status = .pending := congrArg WithdrawalRequest.status hr
    have hexpires : r.expiresAt = i.now + batchTtlMs := congrArg WithdrawalRequest.expiresAt hr
    unfold WithdrawalRequest.isOpen
    rw [hstatus, hexpires, decide_eq_true (Nat.lt_add_of_pos_right (by decide))]
    rfl

theorem showMessage_leaves {k : Unit → AlertProg α} (habort : ∀ e, Q (.error e) s)
    (hok : ∀ ns t, batch [update WeeklyAlerts.requestsT (fun _ r => r.id == id)
      fun _ r => { r with posted := true }] 0 s = .ok (ns, t) → Prog.Leaves Q (k ()) t) :
    Prog.Leaves Q (showMessage id >>= k) s := by
  rw [showMessage, void, bind_assoc]
  exact Prog.Leaves.commit (fun a _ => habort (.aborted a)) hok

theorem proposeOwnerAction_leaves (i : AlertInput) (index : Nat) (ids : List Id) (s : WeeklyAlerts) :
    Prog.Leaves (ProposeLeaves i index [ids] s)
      (WeeklyAlerts.proposeOwnerAction (i.uuids index) (.batchPaid ids) i.now batchTtlMs (i.postings index)) s := by
  have hfail : ∀ e, ProposeLeaves (α := Option Id) i index [ids] s (.error e) s :=
    fun e => ⟨[], Proposed.start i _ s, fun ⟨_, he⟩ => by cases he⟩
  -- the request stands in the table before the message is sent
  have hinsert : ∀ {ns : List Nat} {t : WeeklyAlerts},
      batch [insert WeeklyAlerts.requestsT .abort fun _ => [i.request index ids]] 0 s = .ok (ns, t) →
      t.requests.rows = s.requests.rows ++ [i.request index ids] ∧ t.jobs = s.jobs := by
    intro ns t h
    obtain ⟨n, hst, -⟩ := batch_single_ok h
    obtain ⟨-, table, ht, rfl⟩ := insert_abort_ok hst
    exact ⟨ht, rfl⟩
  have hstopped : ∀ {t : WeeklyAlerts} {r : WithdrawalRequest} (e : Failure OwnerAlertError),
      t.requests.rows = s.requests.rows ++ [r] → t.jobs = s.jobs →
      { r with messageId := .none, posted := false } = i.request index ids →
      ProposeLeaves (α := Option Id) i index [ids] s (.error e) t :=
    fun _ hrows hjobs hr => ⟨_, Proposed.one hrows hjobs hr, fun ⟨_, he⟩ => by cases he⟩
  unfold WeeklyAlerts.proposeOwnerAction
  cases hposting : i.postings index with
  | unresolved => exact hfail _
  | plain sent =>
    cases sent with
    | false => exact hfail _
    | true =>
      refine ⟨[], Proposed.start i _ s, fun _ hbuttons => ?_⟩
      exact absurd hposting (hbuttons 0 Nat.zero_lt_one)
  | posted messageId =>
    refine Prog.Leaves.commit (fun _ _ => hfail _) fun ns t h => ?_
    obtain ⟨hrows, hjobs⟩ := hinsert h
    refine showMessage_leaves (fun _ => hstopped _ hrows hjobs rfl) fun ns t1 h1 => ?_
    obtain ⟨hrows1, hjobs1⟩ := update_request_rows hrows rfl h1
    refine Prog.Leaves.commit (fun _ _ => hstopped _ hrows1 (hjobs1.trans hjobs) rfl) fun ns t2 h2 => ?_
    obtain ⟨hrows2, hjobs2⟩ := update_request_rows hrows1 rfl h2
    refine ⟨_, Proposed.one hrows2 (hjobs2.trans (hjobs1.trans hjobs)) rfl, fun _ _ ids hids => ?_⟩
    exact ⟨_, mem_singleton_self _, rfl, (mem_singleton.mp hids).symm⟩
  | unheard =>
    refine Prog.Leaves.commit (fun _ _ => hfail _) fun ns t h => ?_
    obtain ⟨hrows, hjobs⟩ := hinsert h
    refine showMessage_leaves (fun _ => hstopped _ hrows hjobs rfl) fun ns t1 h1 => ?_
    obtain ⟨hrows1, hjobs1⟩ := update_request_rows hrows rfl h1
    exact hstopped _ hrows1 (hjobs1.trans hjobs) rfl
  | unsent =>
    refine Prog.Leaves.commit (fun _ _ => hfail _) fun ns t h => ?_
    obtain ⟨hrows, hjobs⟩ := hinsert h
    exact hstopped _ hrows hjobs rfl

theorem proposeBatch_leaves (i : AlertInput) (index : Nat) (chunk : List Withdrawal) (s : WeeklyAlerts) :
    Prog.Leaves (ProposeLeaves i index [chunk.map (·.id)] s) (proposeBatch i index chunk) s := by
  refine Prog.Leaves.bind (proposeOwnerAction_leaves i index _ s) (fun b t h => ?_) fun e t h => ?_
  · obtain ⟨added, hadded, hposted⟩ := h
    exact ⟨added, hadded, fun _ => hposted ⟨b, rfl⟩⟩
  · obtain ⟨added, hadded, -⟩ := h
    exact ⟨added, hadded, fun ⟨_, he⟩ => by cases he⟩

theorem proposeBatches_leaves (i : AlertInput) (chunks : List (List Withdrawal)) (index : Nat) (s : WeeklyAlerts) :
    Prog.Leaves (ProposeLeaves i index (messageIds chunks) s) (proposeBatches i index chunks) s := by
  induction chunks generalizing index s with
  | nil => exact ⟨[], Proposed.start i _ s, fun _ _ => nofun⟩
  | cons chunk chunks ih =>
    refine Prog.Leaves.bind (proposeBatch_leaves i index chunk s) (fun _ t h => ?_) fun e t h => ?_
    · obtain ⟨added, hadded, hposted⟩ := h
      refine (ih (index + 1) t).mono ?_
      rintro r u ⟨more, hmore, hrest⟩
      refine ⟨added ++ more, hadded.append hmore, fun hok hbuttons ids hids => ?_⟩
      rcases mem_cons.mp hids with rfl | hids
      · have hfirst : ∀ k < 1, i.postings (index + k) ≠ .plain true := fun k hk =>
          hbuttons k (Nat.lt_of_lt_of_le hk (Nat.succ_le_succ (Nat.zero_le _)))
        obtain ⟨x, hx, hshown⟩ := hposted ⟨(), rfl⟩ hfirst _ (mem_singleton_self _)
        exact ⟨x, mem_append_left _ hx, hshown⟩
      · have hlater : ∀ k < (messageIds chunks).length, i.postings (index + 1 + k) ≠ .plain true := by
          intro k hk
          rw [Nat.add_assoc, Nat.add_comm 1 k]
          exact hbuttons (k + 1) (Nat.succ_lt_succ hk)
        obtain ⟨x, hx, hshown⟩ := hrest hok hlater ids hids
        exact ⟨x, mem_append_right _ hx, hshown⟩
    · obtain ⟨added, hadded, -⟩ := h
      refine ⟨added, hadded.mono ?_, fun ⟨_, he⟩ => by cases he⟩
      exact List.Sublist.cons_cons _ (nil_sublist _)

end Propose

/-! ## A pass -/

section Pass

variable {i : AlertInput} {s t : WeeklyAlerts}

theorem claimPeriod_leaves {period : Nat} (hheld : s.settings key = some period → Prog.Leaves Q (k false) s)
    (hfree : s.settings key ≠ some period → Prog.Leaves Q (k true) (s.setting key (some period))) :
    Prog.Leaves Q (claimPeriod key period >>= k) s := by
  unfold claimPeriod Prog.Leaves
  rw [act_bind, alone]
  split
  · next h => exact hheld h
  · next h => exact hfree h

theorem claimInterval_leaves {intervalMs : Nat} (hwait : Prog.Leaves Q (k false) s)
    (hdue : (∀ last ∈ s.settings key, last + intervalMs ≤ now) → Prog.Leaves Q (k true) (s.setting key (some now))) :
    Prog.Leaves Q (claimInterval key now intervalMs >>= k) s := by
  unfold claimInterval Prog.Leaves
  rw [act_bind, alone]
  split
  · next h =>
    refine hdue fun last hlast => ?_
    rw [Option.mem_def.mp hlast] at h
    exact of_decide_eq_true h
  · exact hwait

structure AlertInput.Due (i : AlertInput) (s : WeeklyAlerts) : Prop where
  configured : i.configured = true
  weekday : beijingWeekday i.now = settlementWeekday
  hour : alertHour ≤ beijingHour i.now
  day : s.settings .lastDay ≠ some (beijingDay i.now)
  attempt : ∀ last ∈ s.settings .lastAttempt, last + retryMs ≤ i.now

/-- What goes out when `withdrawals` are pulled. -/
def WeeklyAlerts.messages (s : WeeklyAlerts) (now : Time) (withdrawals : List Withdrawal) : List (List Id) :=
  messageIds (chunksOf (freshOf (s.known now) withdrawals))

def PassLeaves (i : AlertInput) (s : WeeklyAlerts) (r : Except (Failure OwnerAlertError) AlertReply)
    (t : WeeklyAlerts) : Prop :=
  t.requests = s.requests ∧ (∀ pending proposed, r ≠ .ok (.ran pending proposed)) ∨
    ∃ withdrawals, i.pull = some withdrawals ∧ i.Due s ∧ ∃ added, Proposed i (s.messages i.now withdrawals) added s t ∧
      ((∃ pending proposed, r = .ok (.ran pending proposed)) → AllPosted i 0 (s.messages i.now withdrawals) added)

theorem proposeFresh_leaves (i : AlertInput) (pending : Nat) (fresh : List Withdrawal) (s : WeeklyAlerts) :
    Prog.Leaves (fun r t => ∃ added, Proposed i (messageIds (chunksOf fresh)) added s t ∧
      ((∃ pending proposed, r = .ok (.ran pending proposed)) → AllPosted i 0 (messageIds (chunksOf fresh)) added))
      (proposeFresh i pending fresh) s := by
  have hran := Prog.Leaves.bind (Q := ProposeLeaves i 0 (messageIds (chunksOf fresh)) s)
    (k := fun _ => .done (AlertReply.ran pending fresh.length)) (proposeBatches_leaves i (chunksOf fresh) 0 s)
    (fun _ t ⟨added, hadded, hposted⟩ => ⟨added, hadded, fun _ => hposted ⟨(), rfl⟩⟩)
    fun e t ⟨added, hadded, _⟩ => ⟨added, hadded, fun ⟨_, he⟩ => by cases he⟩
  refine hran.tryCatch ?_ ?_ ?_
  · rintro reply t ⟨added, hadded, hposted⟩
    exact ⟨added, hadded, fun _ => hposted ⟨reply, rfl⟩⟩
  · rintro t ⟨added, hadded, -⟩
    exact ⟨added, hadded, fun ⟨_, _, he⟩ => by cases he⟩
  · rintro e t - ⟨added, hadded, -⟩
    refine Prog.Leaves.effect ⟨added, hadded.settings rfl rfl rfl rfl, ?_⟩
    rintro ⟨_, _, he⟩
    cases he

theorem runWithdrawalAlerts_leaves (i : AlertInput) (s : WeeklyAlerts) :
    Prog.Leaves (PassLeaves i s) (runWithdrawalAlerts i) s := by
  have hquiet : ∀ {reply : AlertReply} {t : WeeklyAlerts}, t.requests = s.requests →
      (∀ pending proposed, reply ≠ .ran pending proposed) →
      Prog.Leaves (PassLeaves i s) (.done reply : AlertProg AlertReply) t := by
    intro reply t hrows hreply
    refine Or.inl ⟨hrows, fun pending proposed h => ?_⟩
    exact hreply pending proposed (Except.ok.inj h)
  unfold runWithdrawalAlerts
  split
  · exact hquiet rfl nofun
  next hconfigured =>
  split
  · exact hquiet rfl nofun
  next hweekday =>
  split
  · exact hquiet rfl nofun
  next hhour =>
  refine Prog.Leaves.query ?_
  split
  · exact hquiet rfl nofun
  next hday =>
  refine claimInterval_leaves (hquiet rfl nofun) fun hattempt => ?_
  have hdue : i.Due s := by
    refine ⟨?_, not_not.mp hweekday, not_lt.mp hhour, fun h => hday ?_, hattempt⟩
    · cases hvalue : i.configured with
      | true => rfl
      | false => exact absurd (by rw [hvalue]; rfl) hconfigured
    · rw [h, beq_self_eq_true]
  have hpast : ¬(!true) = true := Bool.false_ne_true
  rw [if_neg hpast]
  cases hpull : i.pull with
  | none => exact claimPeriod_leaves (fun _ => hquiet rfl nofun) fun _ => hquiet rfl nofun
  | some withdrawals =>
    refine claimPeriod_leaves (fun _ => hquiet rfl nofun) fun _ => ?_
    rw [if_neg hpast]
    refine Prog.Leaves.query ?_
    split
    · exact .inl ⟨rfl, nofun⟩
    refine Prog.Leaves.query ?_
    refine Prog.Leaves.mono (M := fun r t => ∃ added, Proposed i (s.messages i.now withdrawals) added s t ∧
      ((∃ pending proposed, r = .ok (AlertReply.ran pending proposed)) →
        AllPosted i 0 (s.messages i.now withdrawals) added)) ?_ fun r t h => .inr ⟨withdrawals, hpull, hdue, h⟩
    dsimp only
    split
    · next hnone =>
      -- nothing is fresh, and no message goes out
      have hmessages : s.messages i.now withdrawals = [] := by
        unfold WeeklyAlerts.messages
        rw [show freshOf (s.known i.now) withdrawals = [] from hnone]
        rfl
      rw [hmessages]
      exact ⟨[], (Proposed.start i [] s).settings rfl rfl rfl rfl, fun _ _ => nofun⟩
    · refine (proposeFresh_leaves i withdrawals.length _ _).mono ?_
      rintro r t ⟨added, hadded, hposted⟩
      exact ⟨added, hadded.settings rfl rfl rfl rfl, hposted⟩

end Pass

/-! ## Whole days -/

/-- An open message in the chat, or an open look-up, has the withdrawal. -/
def WeeklyAlerts.Shown (s : WeeklyAlerts) (now : Time) (id : Id) : Prop :=
  (∃ r ∈ s.requests.rows, r.isOpen now = true ∧ r.posted = true ∧ id ∈ r.ask.withdrawalIds) ∨
    ∃ j ∈ s.jobs.rows, j.isOpen = true ∧ id ∈ (j.target :: j.group).map (·.id)

def AllShown (i : AlertInput) (t : WeeklyAlerts) : Prop :=
  ∀ withdrawals ∈ i.pull, ∀ w ∈ withdrawals, w.status = .pending → t.Shown i.now w.id

def WithdrawalRequest.PostedOn (r : WithdrawalRequest) (day : Nat) : Prop :=
  r.ask.isBatch = true ∧ r.posted = true ∧ beijingDay r.createdAt = day

def OneMessageADay (s : WeeklyAlerts) : Prop :=
  ∀ a ∈ s.requests.rows, ∀ b ∈ s.requests.rows, ∀ day, a.PostedOn day → b.PostedOn day → a.id ≠ b.id →
    a.ask.withdrawalIds.Disjoint b.ask.withdrawalIds

/-- Where a pass over `withdrawals` does what it is for. -/
structure AlertInput.Clear (i : AlertInput) (s : WeeklyAlerts) (withdrawals : List Withdrawal) : Prop where
  /-- What counts a withdrawal is in the chat. -/
  seen : ∀ w ∈ withdrawals, w.status = .pending → w.id ∈ s.known i.now → s.Shown i.now w.id
  buttons : ∀ k < (s.messages i.now withdrawals).length, i.postings k ≠ .plain true
  /-- What went out that day still counts. -/
  held : ∀ w ∈ withdrawals, w.status = .pending →
    (∃ r ∈ s.requests.rows, r.PostedOn (beijingDay i.now) ∧ w.id ∈ r.ask.withdrawalIds) → w.id ∈ s.known i.now

def ClearFor (i : AlertInput) (s : WeeklyAlerts) : Prop := i.Due s → ∀ withdrawals ∈ i.pull, i.Clear s withdrawals

def AlertInput.Distinct (i : AlertInput) : Prop := ∀ withdrawals ∈ i.pull, (withdrawals.map (·.id)).Nodup

/-- The rest of the shop answers, closes and deletes requests and look-ups; batches come from the passes alone. -/
def OutsidePasses (s t : WeeklyAlerts) : Prop :=
  ∀ r ∈ t.requests.rows, ∀ day, r.PostedOn day →
    ∃ r' ∈ s.requests.rows, r'.PostedOn day ∧ r'.id = r.id ∧ r'.ask = r.ask

inductive AlertStep (C : AlertInput → WeeklyAlerts → Prop) : WeeklyAlerts → WeeklyAlerts → Prop
  | pass {s : WeeklyAlerts} (i : AlertInput) (hdistinct : i.Distinct) (h : C i s) :
    AlertStep C s ((runWithdrawalAlerts i).alone s).2
  | outside {s t : WeeklyAlerts} (h : OutsidePasses s t) : AlertStep C s t

section Run

variable {i : AlertInput} {s t : WeeklyAlerts} {withdrawals : List Withdrawal} {added : List WithdrawalRequest}

theorem mem_freshOf {known : List Id} {w : Withdrawal} :
    w ∈ freshOf known withdrawals ↔ w ∈ withdrawals ∧ w.status = .pending ∧ w.id ∉ known := by
  unfold freshOf
  rw [mem_filter, Bool.and_eq_true, beq_iff_eq, Bool.not_eq_true', contains_eq_mem, decide_eq_false_iff_not]

theorem WeeklyAlerts.messages_nodup (s : WeeklyAlerts) (now : Time) (h : (withdrawals.map (·.id)).Nodup) :
    (s.messages now withdrawals).flatten.Nodup :=
  messageIds_nodup (h.sublist (filter_sublist.map _))

section

variable (h : Proposed i (s.messages i.now withdrawals) added s t)
include h

theorem Proposed.disjoint (hdistinct : (withdrawals.map (·.id)).Nodup) {a b : WithdrawalRequest}
    (ha : a ∈ added) (hb : b ∈ added) (hne : a ≠ b) : a.ask.withdrawalIds.Disjoint b.ask.withdrawalIds := by
  have hpair := (nodup_flatten.mp (s.messages_nodup i.now hdistinct)).2.sublist h.asks
  rw [pairwise_map] at hpair
  have : Std.Symm fun a b : WithdrawalRequest => a.ask.withdrawalIds.Disjoint b.ask.withdrawalIds :=
    ⟨fun _ _ => disjoint_symm⟩
  exact hpair.forall ha hb hne

theorem Proposed.fresh (hr : r ∈ added) (hid : id ∈ r.ask.withdrawalIds) :
    ∃ w ∈ withdrawals, w.status = .pending ∧ w.id = id ∧ id ∉ s.known i.now := by
  have hmem := h.asks.subset (mem_map_of_mem hr)
  obtain ⟨w, hw, rfl⟩ := mem_messageIds.mp ⟨_, hmem, hid⟩
  obtain ⟨hw, hpending, hnew⟩ := (mem_freshOf).mp hw
  exact ⟨w, hw, hpending, rfl, hnew⟩

end

theorem WeeklyAlerts.Shown.step (h : s.Shown now id) (hrows : t.requests.rows = s.requests.rows ++ added)
    (hjobs : t.jobs = s.jobs) : t.Shown now id := by
  rcases h with ⟨r, hr, hshown⟩ | ⟨j, hj, hjob⟩
  · exact .inl ⟨r, by rw [hrows]; exact mem_append_left _ hr, hshown⟩
  · exact .inr ⟨j, by rw [hjobs]; exact hj, hjob⟩

theorem ClearFor.allShown (hclear : ClearFor i s) {pending proposed : Nat}
    (hran : ((runWithdrawalAlerts i).alone s).1 = .ok (.ran pending proposed)) :
    AllShown i ((runWithdrawalAlerts i).alone s).2 := by
  rcases runWithdrawalAlerts_leaves i s with ⟨-, hnot⟩ | ⟨withdrawals, hpull, hdue, added, hadded, hposted⟩
  · exact absurd hran (hnot pending proposed)
  intro pulled hpulled w hw hpending
  obtain rfl : withdrawals = pulled := Option.some.inj (hpull.symm.trans hpulled)
  have hc := hclear hdue withdrawals hpull
  by_cases hknown : w.id ∈ s.known i.now
  · exact (hc.seen w hw hpending hknown).step hadded.requests hadded.jobs
  · obtain ⟨ids, hids, hid⟩ := mem_messageIds.mpr ⟨w, (mem_freshOf).mpr ⟨hw, hpending, hknown⟩, rfl⟩
    have hbuttons : ∀ k < (s.messages i.now withdrawals).length, i.postings (0 + k) ≠ .plain true := by
      intro k hk
      rw [Nat.zero_add]
      exact hc.buttons k hk
    obtain ⟨r, hr, hshown, hask⟩ := hposted ⟨pending, proposed, hran⟩ hbuttons ids hids
    refine .inl ⟨r, ?_, (hadded.batch r hr).2.2, hshown, hask ▸ hid⟩
    rw [hadded.requests]
    exact mem_append_right _ hr

theorem OneMessageADay.pass (h : OneMessageADay s) (hdistinct : i.Distinct) (hclear : ClearFor i s) :
    OneMessageADay ((runWithdrawalAlerts i).alone s).2 := by
  rcases runWithdrawalAlerts_leaves i s with ⟨hsame, -⟩ | ⟨withdrawals, hpull, hdue, added, hadded, -⟩
  · unfold OneMessageADay
    rw [hsame]
    exact h
  have hheld := (hclear hdue withdrawals hpull).held
  -- a request of the pass against one that stood before
  have hcross : ∀ {a b : WithdrawalRequest} {day : Nat}, a ∈ s.requests.rows → b ∈ added → a.PostedOn day →
      b.PostedOn day → a.ask.withdrawalIds.Disjoint b.ask.withdrawalIds := by
    intro a b day ha hb hpa hpb id hida hidb
    obtain ⟨w, hw, hpending, rfl, hnew⟩ := hadded.fresh hb hidb
    have hday : beijingDay i.now = day := by
      rw [← (hadded.batch b hb).2.1]
      exact hpb.2.2
    exact hnew (hheld w hw hpending ⟨a, ha, hday ▸ hpa, hida⟩)
  intro a ha b hb day hpa hpb hne
  rw [hadded.requests] at ha hb
  rcases mem_append.mp ha with ha | ha
  · rcases mem_append.mp hb with hb | hb
    · exact h a ha b hb day hpa hpb hne
    · exact hcross ha hb hpa hpb
  · rcases mem_append.mp hb with hb | hb
    · exact disjoint_symm (hcross hb ha hpb hpa)
    · exact hadded.disjoint (hdistinct withdrawals hpull) ha hb fun heq => hne (congrArg WithdrawalRequest.id heq)

theorem OneMessageADay.outside (h : OneMessageADay s) (hst : OutsidePasses s t) : OneMessageADay t := by
  intro a ha b hb day hpa hpb hne
  obtain ⟨a', ha', hpa', hida, haska⟩ := hst a ha day hpa
  obtain ⟨b', hb', hpb', hidb, haskb⟩ := hst b hb day hpb
  rw [← haska, ← haskb]
  refine h a' ha' b' hb' day hpa' hpb' ?_
  rw [hida, hidb]
  exact hne

/-- Over the passes of any days: where each finds what counts a withdrawal in the chat, with its buttons, one that
answers that it ran has shown every pending withdrawal, and no withdrawal is in two batch messages of one day. -/
theorem withdrawals_shown_once (hs : OneMessageADay s) (hrun : Relation.ReflTransGen (AlertStep ClearFor) s t) :
    OneMessageADay t ∧ ∀ i : AlertInput, i.Distinct → ClearFor i t → ∀ pending proposed,
      ((runWithdrawalAlerts i).alone t).1 = .ok (.ran pending proposed) →
        AllShown i ((runWithdrawalAlerts i).alone t).2 := by
  refine ⟨?_, fun _ _ hclear _ _ hran => hclear.allShown hran⟩
  induction hrun with
  | refl => exact hs
  | tail _ hstep ih =>
    cases hstep with
    | pass i hdistinct hclear => exact ih.pass hdistinct hclear
    | outside h => exact ih.outside h

end Run

/-! ## A Monday with one withdrawal -/

def weekly : Withdrawal where
  id := 1
  amount := 5000
  account := "a"

/-- A pass on a Monday, `minutes` after ten. -/
def mondayPass (minutes : Nat) (pull : Option (List Withdrawal)) (posting : Posting) : AlertInput where
  now := 352800000 + minutes * 60000
  pull := pull
  postings _ := posting
  uuids k := 100 + k

def quietWeek : WeeklyAlerts := ⟨fun _ => none, Table.empty, Table.empty⟩

theorem quietWeek_once : OneMessageADay quietWeek := fun a ha => by cases (show a ∈ [] from ha)

theorem mondayPass_distinct (minutes : Nat) (posting : Posting) :
    (mondayPass minutes (some [weekly]) posting).Distinct := by
  intro withdrawals hpull
  cases hpull
  exact nodup_singleton _

/-- The pull fails at ten; ten minutes later the withdrawal is shown. -/
theorem withdrawals_shown_once_monday :
    AllShown (mondayPass 10 (some [weekly]) (.posted 7))
      ((runWithdrawalAlerts (mondayPass 10 (some [weekly]) (.posted 7))).alone
        ((runWithdrawalAlerts (mondayPass 0 none .unsent)).alone quietWeek).2).2 := by
  have hfirst : Relation.ReflTransGen (AlertStep ClearFor) quietWeek
      ((runWithdrawalAlerts (mondayPass 0 none .unsent)).alone quietWeek).2 :=
    .single (.pass _ nofun fun _ => nofun)
  refine (withdrawals_shown_once quietWeek_once hfirst).2 _ (mondayPass_distinct 10 _) ?_ 1 1 (by decide)
  intro _ withdrawals hpull
  cases hpull
  exact ⟨fun _ _ _ => nofun, fun _ _ => nofun, fun _ _ _ ⟨r, hr, _⟩ => by cases (show r ∈ [] from hr)⟩

/-- The message fails at ten; ten minutes later the pass skips the withdrawal and answers that it ran. -/
theorem not_withdrawals_shown_once :
    ¬∀ s t : WeeklyAlerts, OneMessageADay s → Relation.ReflTransGen (AlertStep fun _ _ => True) s t →
      OneMessageADay t ∧ ∀ i : AlertInput, i.Distinct → ∀ pending proposed,
        ((runWithdrawalAlerts i).alone t).1 = .ok (.ran pending proposed) →
          AllShown i ((runWithdrawalAlerts i).alone t).2 := by
  intro hclaim
  have hfirst : Relation.ReflTransGen (AlertStep fun _ _ => True) quietWeek
      ((runWithdrawalAlerts (mondayPass 0 (some [weekly]) .unsent)).alone quietWeek).2 :=
    .single (.pass _ (mondayPass_distinct 0 _) trivial)
  have hshown := (hclaim _ _ quietWeek_once hfirst).2 _ (mondayPass_distinct 10 (.posted 7)) 1 0 (by decide)
    _ rfl weekly (mem_singleton_self _) rfl
  rcases hshown with ⟨r, hr, -, hposted, -⟩ | ⟨j, hj, -⟩
  · have hunposted : ∀ r ∈ ((runWithdrawalAlerts (mondayPass 10 (some [weekly]) (.posted 7))).alone
        ((runWithdrawalAlerts (mondayPass 0 (some [weekly]) .unsent)).alone quietWeek).2).2.requests.rows,
        r.posted = false := by decide
    rw [hunposted r hr] at hposted
    cases hposted
  · cases (show j ∈ [] from hj)

end Gmshop
