import GmshopEdge.AgentProgram.Withdrawals
import GmshopEdge.Lib.Guarantee

/-!
# One transfer pays withdrawals once

A report is accepted when the amounts of its withdrawals sum to the transfer's. As long as all withdrawals that
carry a trade number are among those of one report, their sum is at most that (`sum_le_amountsSum`).

The list of used trade numbers that keeps a transfer from a second report is as old as the job: `freshReports` is
the condition that the number is still unused outside the report when a withdrawal is marked with it.
-/

namespace Gmshop

open List Sql Stmt Prog Table Option Bare

/-! ## The property -/

def Withdrawal.autoPaid (w : Withdrawal) (tradeNo : String) : Bool :=
  w.status == .paid && w.operator == some .autoAlipay && w.alipayTradeNo == some tradeNo

/-- What the withdrawals marked automatically with a trade number come to. -/
def paidWith (s : Payouts) (tradeNo : String) : Nat :=
  s.withdrawals.sum fun w => if w.autoPaid tradeNo then w.amount else 0

/-- A transfer pays for no more than its amount, and a withdrawal is marked with one trade number. -/
structure PaidByOneTransfer (amountOf : String → Nat) (s : Payouts) : Prop where
  sums : ∀ tradeNo, paidWith s tradeNo ≤ amountOf tradeNo
  one : ∀ p ∈ s.marks, ∀ q ∈ s.marks, p.1 = q.1 → p.2 = q.2

/-- The runner reports a transfer as it is, and none that its job lists as used. -/
def trueReports (amountOf : String → Nat) (x : PayoutSite) (_ : Payouts) : Prop :=
  match x with
  | .markPaid transfer usedTradeNos _ => transfer.amount = amountOf transfer.tradeNo ∧ transfer.tradeNo ∉ usedTradeNos
  | _ => True

/-- True reports, and when a withdrawal is marked its trade number has been used automatically for no withdrawal
outside the report. -/
def freshReports (amountOf : String → Nat) (x : PayoutSite) (s : Payouts) : Prop :=
  trueReports amountOf x s ∧ match x with
    | .markPaid transfer _ ids => ∀ w ∈ s.withdrawals.rows, w.autoPaid transfer.tradeNo = true → w.id ∈ ids
    | _ => True

instance (amountOf : String → Nat) (x : PayoutSite) (s : Payouts) : Decidable (trueReports amountOf x s) := by
  cases x <;> unfold trueReports <;> infer_instance

instance (amountOf : String → Nat) (x : PayoutSite) (s : Payouts) : Decidable (freshReports amountOf x s) := by
  cases x <;> unfold freshReports <;> infer_instance

/-! ## The invariant -/

variable {amountOf : String → Nat}

def Known (s : Payouts) (item : VerifyItem) : Prop := ∃ w ∈ s.withdrawals.rows, verifyItem w = item

structure PayoutsSound (amountOf : String → Nat) (s : Payouts) : Prop where
  sums : ∀ tradeNo, paidWith s tradeNo ≤ amountOf tradeNo
  marks : ∀ p ∈ s.marks, ∃ w, s.withdrawals.get? p.1 = some w ∧ w.status = .paid ∧ w.alipayTradeNo = some p.2
  jobs : ∀ j ∈ s.jobs.rows, ∀ item ∈ j.target :: j.group, Known s item

variable {s t : Payouts} {items : List VerifyItem} {ids : List Id} {id : Id} {f : Withdrawal → Withdrawal}
  {tradeNo : String} {operator : Operator} {now : Time} {all : List Withdrawal} {used : List String}
  {transfer : AlipayTransfer}

theorem PayoutsSound.paidByOne (h : PayoutsSound amountOf s) : PaidByOneTransfer amountOf s where
  sums := h.sums
  one p hp q hq hid := by
    obtain ⟨w, hw, -, htrade⟩ := h.marks p hp
    obtain ⟨w', hw', -, htrade'⟩ := h.marks q hq
    rw [← hid, hw] at hw'
    rw [← some.inj hw', htrade] at htrade'
    exact some.inj htrade'

def PayoutsGrow (s t : Payouts) : Prop := ∀ item, Known s item → Known t item

def payoutSpec (amountOf : String → Nat) : Spec Payouts PayoutSite Empty :=
  .ofRel (PayoutsSound amountOf) (freshReports amountOf) (fun _ _ => True) PayoutsGrow (fun _ => trivial)
    (fun _ _ h => h) fun _ _ _ h h' item hitem => h' item (h item hitem)

theorem admits_payouts (ht : PayoutsSound amountOf t) (h : PayoutsGrow s t) : (payoutSpec amountOf).Admits ∅ ∅ s t :=
  Spec.admits_ofRel ht trivial fun _ => h

/-! ## Sums -/

theorem amountIn_mem {id amount : Nat} (h : amountIn items id = some amount) :
    ∃ item ∈ items, item.id = id ∧ item.amount = amount := by
  obtain ⟨item, hitem, rfl⟩ := map_eq_some_iff.mp h
  obtain ⟨hmem, hid⟩ := mem_filter.mp (mem_of_getLast? hitem)
  exact ⟨item, hmem, beq_iff_eq.mp hid, rfl⟩

theorem sum_id_eq {w : Withdrawal} (hw : w ∈ s.withdrawals.rows) :
    (s.withdrawals.sum fun x => if x.id == w.id then x.amount else 0) = w.amount := by
  have hget : s.withdrawals.get? w.id = some w := mem_get? hw
  refine (sum_key s.withdrawals w.id Withdrawal.amount).trans ?_
  rw [hget]
  rfl

theorem sum_le_amountsSum (hknown : ∀ item ∈ items, Known s item) {total : Nat}
    (htotal : amountsSum items ids = some total) :
    (s.withdrawals.sum fun w => if ids.contains w.id then w.amount else 0) ≤ total := by
  induction ids generalizing total with
  | nil =>
    have hzero : (s.withdrawals.sum fun w => if ([] : List Id).contains w.id then w.amount else 0) = 0 := by
      simp [Table.sum]
    rw [hzero]
    exact Nat.zero_le total
  | cons id ids ih =>
    obtain ⟨amount, hamount, hrest⟩ := bind_eq_some_iff.mp htotal
    obtain ⟨sum, hsum, rfl⟩ := map_eq_some_iff.mp hrest
    obtain ⟨item, hitem, hid, rfl⟩ := amountIn_mem hamount
    obtain ⟨w, hw, rfl⟩ := hknown item hitem
    have hid : w.id = id := hid
    subst hid
    have hfirst := sum_id_eq hw
    have hothers := ih hsum
    have hsplit : (s.withdrawals.sum fun x => if (w.id :: ids).contains x.id then x.amount else 0) ≤
        s.withdrawals.sum fun x => (if x.id == w.id then x.amount else 0) +
          if ids.contains x.id then x.amount else 0 := by
      refine Table.sum_le fun x _ => ?_
      rw [contains_cons]
      cases x.id == w.id <;> cases ids.contains x.id <;> simp
    rw [Table.sum_add] at hsplit
    show _ ≤ w.amount + sum
    omega

/-! ## What becomes of the withdrawals -/

/-- One pending withdrawal is rewritten, its id, amount and account kept. -/
structure Settled (s t : Payouts) (id : Id) (f : Withdrawal → Withdrawal) : Prop where
  pending : ∃ w, s.withdrawals.get? id = some w ∧ w.status = .pending
  rows : t.withdrawals.rows = s.withdrawals.rows.map fun w => if w.id = id then f w else w
  item : ∀ w, verifyItem (f w) = verifyItem w
  jobs : t.jobs = s.jobs

section

variable (h : Settled s t id f)
include h

theorem Settled.get? (k : Id) :
    t.withdrawals.get? k = (s.withdrawals.get? k).map fun w => if w.id = id then f w else w :=
  get?_map h.rows (fun w => by
    show (if w.id = id then f w else w).id = w.id
    split
    · exact congrArg VerifyItem.id (h.item w)
    · rfl) k

theorem Settled.grow : PayoutsGrow s t := by
  rintro item ⟨w, hw, rfl⟩
  refine ⟨if w.id = id then f w else w, ?_, ?_⟩
  · rw [h.rows]
    exact mem_map_of_mem hw
  · split
    · exact h.item w
    · rfl

theorem Settled.marks (hs : PayoutsSound amountOf s) {p : Id × String} (hp : p ∈ s.marks) :
    ∃ w, t.withdrawals.get? p.1 = some w ∧ w.status = .paid ∧ w.alipayTradeNo = some p.2 := by
  obtain ⟨w, hw, hpaid, htrade⟩ := hs.marks p hp
  obtain ⟨w₀, hw₀, hpending⟩ := h.pending
  have hid : w.id = p.1 := get?_key hw
  have hne : w.id ≠ id := by
    intro heq
    rw [← hid, heq, hw₀] at hw
    rw [← some.inj hw, hpending] at hpaid
    cases hpaid
  refine ⟨w, ?_, hpaid, htrade⟩
  rw [h.get?, hw, map_some, if_neg hne]

theorem Settled.paidWith_le (hf : ∀ w, (f w).autoPaid tradeNo = false) : paidWith t tradeNo ≤ paidWith s tradeNo := by
  refine sum_le_of_map h.rows fun w _ => ?_
  split
  · rw [hf w]
    exact Nat.zero_le _
  · exact Nat.le_refl _

theorem Settled.sound (hs : PayoutsSound amountOf s) (hsums : ∀ tradeNo, paidWith t tradeNo ≤ amountOf tradeNo)
    (hmarks : ∀ p ∈ t.marks, p ∈ s.marks ∨
      ∃ w, t.withdrawals.get? p.1 = some w ∧ w.status = .paid ∧ w.alipayTradeNo = some p.2) :
    PayoutsSound amountOf t where
  sums := hsums
  marks p hp := (hmarks p hp).elim (fun hold => h.marks hs hold) fun hnew => hnew
  jobs j hj item hitem := by
    rw [h.jobs] at hj
    exact h.grow item (hs.jobs j hj item hitem)

end

/-- What `markPaid` makes of the withdrawal. -/
def Withdrawal.marked (tradeNo : String) (operator : Operator) (w : Withdrawal) : Withdrawal :=
  { w with status := .paid, alipayTradeNo := some tradeNo, operator := some operator }

theorem marked_autoPaid {other : String} (w : Withdrawal) (h : operator ≠ .autoAlipay ∨ tradeNo ≠ other) :
    (w.marked tradeNo operator).autoPaid other = false := by
  unfold Withdrawal.autoPaid Withdrawal.marked
  rcases h with h | h <;> simp [h]

theorem marked_sound (h : Settled s t id (Withdrawal.marked tradeNo operator)) (hs : PayoutsSound amountOf s)
    (hmarks : t.marks = (id, tradeNo) :: s.marks)
    (hsum : operator = .autoAlipay → paidWith t tradeNo ≤ amountOf tradeNo) : PayoutsSound amountOf t := by
  refine h.sound hs (fun other => ?_) fun p hp => ?_
  · by_cases hother : operator ≠ .autoAlipay ∨ tradeNo ≠ other
    · exact (h.paidWith_le fun w => marked_autoPaid w hother).trans (hs.sums other)
    · rw [not_or, not_not, not_not] at hother
      rw [← hother.2]
      exact hsum hother.1
  · rw [hmarks] at hp
    rcases mem_cons.mp hp with rfl | hp
    · obtain ⟨w, hw, -⟩ := h.pending
      refine Or.inr ⟨w.marked tradeNo operator, ?_, rfl, rfl⟩
      rw [h.get?, hw, map_some, if_pos (show w.id = id from get?_key hw)]
    · exact Or.inl hp

theorem markPaid_bare {site : PayoutSite} {lost : Bool}
    (h : ∀ t u, PayoutsGrow s t → PayoutsSound amountOf t → freshReports amountOf site t →
      Settled t u id (Withdrawal.marked tradeNo operator) → operator = .autoAlipay →
        paidWith u tradeNo ≤ amountOf tradeNo) :
    Bare (payoutSpec amountOf) (markPaid site id tradeNo operator lost) s := by
  intro t hr ht _ hc
  dsimp only
  cases hu : update Payouts.withdrawalsT (fun _ w => w.id == id && w.status == .pending)
      (fun _ w => { w with status := .paid, alipayTradeNo := some tradeNo, operator := some operator }) 0 t with
  | error a => exact ⟨∅, (payoutSpec amountOf).admits_refl ht, rfl, hr⟩
  | ok r =>
    by_cases hn : r.1 = 0
    · dsimp only
      rw [if_pos hn]
      exact ⟨∅, (payoutSpec amountOf).admits_refl ht, rfl, hr⟩
    · obtain ⟨-, w, table, hw, hpending, hrows, hset⟩ := update_key_hit hu hn
      dsimp only
      rw [if_neg hn, hset]
      have hsettled : Settled t { t with withdrawals := table, marks := (id, tradeNo) :: t.marks } id
          (Withdrawal.marked tradeNo operator) :=
        ⟨⟨w, hw, beq_iff_eq.mp hpending⟩, hrows, fun _ => rfl, rfl⟩
      have hadm := admits_payouts (marked_sound hsettled ht rfl fun hauto =>
        h t _ hr ht (hc site rfl) hsettled hauto) hsettled.grow
      exact ⟨∅, hadm, rfl, fun item hitem => hsettled.grow item (hr item hitem)⟩

/-! ## The calls of the owner and the partner -/

theorem requestWithdrawal_bare (id amount : Nat) (account : String) (s : Payouts) :
    Bare (payoutSpec amountOf) (requestWithdrawal id amount account) s := by
  refine void (commit fun t _ ht _ ns u hb => ?_)
  obtain ⟨n, hi, -⟩ := batch_single_ok hb
  obtain ⟨-, table, hrows, rfl⟩ := insert_ok hi
  have hgrow : PayoutsGrow t { t with withdrawals := table } := by
    rintro item ⟨w, hw, rfl⟩
    refine ⟨w, ?_, rfl⟩
    show w ∈ table.rows
    rw [hrows]
    exact mem_append_left _ hw
  refine admits_payouts ⟨fun tradeNo => ?_, fun p hp => ?_, fun j hj item hitem => ?_⟩ hgrow
  · -- a new withdrawal is not paid
    have hnew : ∀ w ∈ admitted .doNothing t.withdrawals.rows [{ id := id, amount := amount, account := account }],
        (if w.autoPaid tradeNo then w.amount else 0) = 0 := by
      intro w hw
      rw [mem_singleton.mp ((admitted_sublist _ _ _).mem hw)]
      rfl
    have hsum : paidWith { t with withdrawals := table } tradeNo = paidWith t tradeNo := by
      refine (sum_append hrows).trans ?_
      rw [sum_eq_zero fun x hx => ?_, Nat.add_zero]
      · rfl
      · obtain ⟨w, hw, rfl⟩ := mem_map.mp hx
        exact hnew w hw
    exact hsum.trans_le (ht.sums tradeNo)
  · obtain ⟨w, hw, hpaid⟩ := ht.marks p hp
    exact ⟨w, get?_append hrows hw, hpaid⟩
  · exact hgrow item (ht.jobs j hj item hitem)

theorem rejectWithdrawal_bare (id : Id) (s : Payouts) : Bare (payoutSpec amountOf) (rejectWithdrawal id) s := by
  refine void (commit fun t _ ht _ ns u hb => ?_)
  obtain ⟨n, hu, -⟩ := batch_single_ok hb
  rcases update_key_cases (q := fun w => w.status == .pending) (fun _ => rfl) hu with
    ⟨-, -, rfl⟩ | ⟨-, w, table, hw, hpending, hrows, rfl⟩
  · exact (payoutSpec amountOf).admits_refl ht
  · have hsettled : Settled t { t with withdrawals := table } id fun w => { w with status := .rejected } :=
      ⟨⟨w, hw, beq_iff_eq.mp hpending⟩, hrows, fun _ => rfl, rfl⟩
    refine admits_payouts (hsettled.sound ht (fun tradeNo => ?_) fun p hp => Or.inl hp) hsettled.grow
    exact (hsettled.paidWith_le fun _ => rfl).trans (ht.sums tradeNo)

theorem markByOwner_bare (withdrawalId : Id) (tradeNo : Option String) (lost : Bool) (s : Payouts) :
    Bare (payoutSpec amountOf) (markWithdrawalPaidFromTelegram withdrawalId tradeNo lost) s := by
  unfold markWithdrawalPaidFromTelegram
  split
  · exact throw _
  refine bind (markPaid_bare fun _ _ _ _ _ _ hauto => nomatch hauto) fun marked t _ => ?_
  split
  · exact done ()
  · exact throw _

/-! ## Jobs -/

theorem insertVerifyJob_bare {jobId : Id} {target : Withdrawal} {key : Id × String} {batchKey : Option String}
    {only : Option (List Withdrawal)} (hall : ∀ w ∈ all, Known s (verifyItem w)) (htarget : target ∈ all)
    (honly : ∀ l ∈ only, l ⊆ all) :
    Bare (payoutSpec amountOf) (Withdrawals.insertVerifyJob jobId all target key batchKey only now) s := by
  refine void (commit fun t hr ht _ ns u hb => ?_)
  obtain ⟨n, hi, -⟩ := batch_single_ok hb
  obtain ⟨-, table, hrows, rfl⟩ := insert_abort_ok hi
  have hrows : table.rows = t.jobs.rows ++ [_] := hrows
  refine admits_payouts ⟨ht.sums, ht.marks, fun j hj item hitem => ?_⟩ fun _ h => h
  have hj : j ∈ table.rows := hj
  rw [hrows, mem_append, mem_singleton] at hj
  rcases hj with hj | rfl
  · exact ht.jobs j hj item hitem
  · rcases mem_cons.mp hitem with rfl | hitem
    · exact hr _ (hall target htarget)
    · obtain ⟨w, hw, rfl⟩ := mem_map.mp hitem
      refine hr _ (hall w ?_)
      cases only with
      | none => exact (mem_filter.mp hw).1
      | some l => exact honly l rfl hw

theorem insertGroups_bare {jobId : Nat → Id} {key : String} {groups : List (List Withdrawal)}
    (hgroups : ∀ group ∈ groups, group ⊆ all) (hall : ∀ w ∈ all, Known s (verifyItem w)) :
    Bare (payoutSpec amountOf) (insertGroups jobId all key now groups) s := by
  induction groups generalizing s with
  | nil => exact done ()
  | cons group groups ih =>
    have hrest : ∀ group ∈ groups, group ⊆ all := fun g hg => hgroups g (mem_cons_of_mem _ hg)
    have hgroup := hgroups group mem_cons_self
    cases group with
    | nil => exact ih hrest hall
    | cons target rest =>
      refine bind (insertVerifyJob_bare hall (hgroup mem_cons_self) fun l hl => ?_) fun _ t hr => ?_
      · rw [← some.inj hl]
        exact hgroup
      · exact ih hrest fun w hw => hr _ (hall w hw)

theorem queueWithdrawalVerify_bare (jobId withdrawalId : Id) (requestKey : Option String) (now : Time)
    (s : Payouts) : Bare (payoutSpec amountOf) (queueWithdrawalVerify jobId withdrawalId requestKey now) s := by
  refine query fun t _ _ => ?_
  split
  · exact throw _
  · next target hfind =>
    split
    · exact throw _
    · refine insertVerifyJob_bare (fun w hw => ⟨w, hw, rfl⟩) (mem_of_find?_eq_some hfind) ?_
      exact fun _ hl => nomatch hl

theorem queueWithdrawalBatchVerify_bare (jobId : Nat → Id) (withdrawalIds : List Id) (requestKey : String)
    (now : Time) (s : Payouts) :
    Bare (payoutSpec amountOf) (queueWithdrawalBatchVerify jobId withdrawalIds requestKey now) s := by
  refine query fun t _ _ => ?_
  dsimp only
  split
  · exact throw _
  · refine insertGroups_bare (fun group hgroup w hw => ?_) fun w hw => ⟨w, hw, rfl⟩
    obtain ⟨account, -, rfl⟩ := mem_map.mp hgroup
    obtain ⟨id, -, hfind⟩ := mem_filterMap.mp (mem_filter.mp hw).1
    exact mem_of_find?_eq_some hfind

theorem updateVerifyJobs_bare {x : PayoutSite} {p : Payouts → VerifyJob → Bool}
    {f : Payouts → VerifyJob → VerifyJob} (htarget : ∀ s j, (f s j).target = j.target)
    (hgroup : ∀ s j, (f s j).group = j.group) (s : Payouts) :
    Bare (payoutSpec amountOf) (commit x [update Payouts.jobsT p f] : PayoutProg (List Nat)) s := by
  refine commit fun t _ ht _ ns u hb => ?_
  obtain ⟨n, hu, -⟩ := batch_single_ok hb
  obtain ⟨-, table, hrows, rfl⟩ := update_ok hu
  refine admits_payouts ⟨ht.sums, ht.marks, fun j hj item hitem => ?_⟩ fun _ h => h
  have hj : j ∈ table.rows := hj
  rw [hrows] at hj
  obtain ⟨j', hj', rfl⟩ := mem_map.mp hj
  refine ht.jobs j' hj' item ?_
  split at hitem
  · rwa [htarget, hgroup] at hitem
  · exact hitem

theorem claimVerifyJob_bare (s : Payouts) : Bare (payoutSpec amountOf) claimVerifyJob s := by
  unfold claimVerifyJob
  refine void (updateVerifyJobs_bare ?_ ?_ s)
  · exact fun _ _ => rfl
  · exact fun _ _ => rfl

theorem finishVerifyJob_bare (jobId : Id) (status : TopUpStatus) (s : Payouts) :
    Bare (payoutSpec amountOf) (finishVerifyJob jobId status) s := by
  unfold finishVerifyJob
  refine void (updateVerifyJobs_bare ?_ ?_ s)
  · exact fun _ _ => rfl
  · exact fun _ _ => rfl

/-! ## Reports -/

theorem markReported_le {u : Payouts} (hknown : ∀ item ∈ items, Known t item)
    (htotal : amountsSum items ids = some transfer.amount) (hid : id ∈ ids)
    (hfresh : freshReports amountOf (.markPaid transfer used ids) t)
    (h : Settled t u id (Withdrawal.marked transfer.tradeNo .autoAlipay)) :
    paidWith u transfer.tradeNo ≤ amountOf transfer.tradeNo := by
  obtain ⟨⟨htrue, -⟩, hids⟩ := hfresh
  -- every withdrawal that carries the number now is of the report
  have hall : ∀ w ∈ u.withdrawals.rows, w.autoPaid transfer.tradeNo = true → ids.contains w.id = true := by
    intro w hw hpaid
    rw [contains_iff_mem]
    rw [h.rows] at hw
    obtain ⟨x, hx, rfl⟩ := mem_map.mp hw
    by_cases hxid : x.id = id
    · rw [if_pos hxid, show (x.marked transfer.tradeNo .autoAlipay).id = x.id from rfl, hxid]
      exact hid
    · rw [if_neg hxid] at hpaid ⊢
      exact hids x hx hpaid
  calc paidWith u transfer.tradeNo ≤ u.withdrawals.sum fun w => if ids.contains w.id then w.amount else 0 := by
        refine sum_le fun w hw => ?_
        by_cases hpaid : w.autoPaid transfer.tradeNo = true
        · rw [if_pos hpaid, if_pos (hall w hw hpaid)]
        · rw [if_neg hpaid]
          exact Nat.zero_le _
    _ ≤ transfer.amount := sum_le_amountsSum (fun item hitem => h.grow item (hknown item hitem)) htotal
    _ = amountOf transfer.tradeNo := htrue

theorem markAll_bare (lost : Id → Bool) (htotal : amountsSum items ids = some transfer.amount)
    {todo : List Id} (htodo : todo ⊆ ids) (hknown : ∀ item ∈ items, Known s item) :
    Bare (payoutSpec amountOf) (markAll (.markPaid transfer used ids) transfer.tradeNo lost todo) s := by
  induction todo generalizing s with
  | nil => exact done []
  | cons id todo ih =>
    refine bind (markPaid_bare fun t u hr _ hfresh hsettled _ => ?_) fun marked t hr => ?_
    · exact markReported_le (fun item hitem => hr item (hknown item hitem)) htotal (htodo mem_cons_self) hfresh
        hsettled
    · refine bind (ih (fun x hx => htodo (mem_cons_of_mem _ hx)) fun item hitem =>
        hr item (hknown item hitem)) fun paid u _ => ?_
      exact done _

theorem recordVerifyReport_bare (jobId : Id) (report : VerifyReport) (lost : Id → Bool) (s : Payouts) :
    Bare (payoutSpec amountOf) (recordVerifyReport jobId report lost) s := by
  refine query fun t _ ht => ?_
  split
  · exact throw _
  · next job hjob =>
    split
    · exact done none
    have hknown := ht.jobs job (get?_mem hjob)
    refine bind ?_ fun _ _ _ => done _
    refine bind ?_ fun paid u _ => ?_
    · unfold markReported
      split
      · exact done _
      dsimp only
      split
      · next haccepts =>
        unfold VerifyJob.accepts at haccepts
        rw [Bool.and_eq_true, beq_iff_eq] at haccepts
        refine bind (markAll_bare lost haccepts.2 (List.Subset.refl _) hknown) fun _ _ _ => ?_
        exact done _
      · exact done _
    · exact bind (finishVerifyJob_bare _ _ u) fun _ _ _ => done _

theorem payoutCall_bare (call : PayoutCall) (s : Payouts) : Bare (payoutSpec amountOf) call.code s := by
  cases call with
  | request id amount account => exact requestWithdrawal_bare id amount account s
  | reject id => exact rejectWithdrawal_bare id s
  | byOwner id tradeNo lost => exact markByOwner_bare id tradeNo lost s
  | verify jobId id key now => exact queueWithdrawalVerify_bare jobId id key now s
  | verifyBatch jobId ids key now => exact queueWithdrawalBatchVerify_bare jobId ids key now s
  | claim => exact claimVerifyJob_bare s
  | report jobId body lost => exact (recordVerifyReport_bare jobId body lost s).void

/-! ## Runs -/

/-- Where a trade number is still unused when a report's withdrawals are marked with it, every run pays with a
transfer once. -/
theorem transfers_pay_once {s : Payouts} (hs : PayoutsSound amountOf s)
    {w : World Payouts PayoutSite DomainError Unit}
    (h : Runs PayoutCall.code (freshReports amountOf) ⟨s, []⟩ w) : PaidByOneTransfer amountOf w.db := by
  have hgood := Runs.sound (payoutSpec amountOf) (fun call t _ => (payoutCall_bare call t).ok) h (good_idle _ hs)
  exact (show PayoutsSound amountOf w.db from hgood.1.1).paidByOne

def twoPending : Payouts := ⟨.of [{ id := 1, amount := 1000, account := "a" }, { id := 2, amount := 1000, account := "a" }],
  .of [], []⟩

theorem twoPending_sound (amountOf : String → Nat) : PayoutsSound amountOf twoPending where
  sums _ := Nat.zero_le _
  marks _ hp := absurd hp not_mem_nil
  jobs _ hj := absurd hj not_mem_nil

/-- One transfer pays both withdrawals of the account. -/
theorem transfers_pay_once_both : ∃ w : World Payouts PayoutSite DomainError Unit,
    Runs PayoutCall.code (freshReports fun _ => 2000) ⟨twoPending, []⟩ w ∧
      w.db.withdrawals.rows.map (·.alipayTradeNo) = [some "trade-1", some "trade-1"] ∧
      PaidByOneTransfer (fun _ => 2000) w.db := by
  obtain ⟨w, hw⟩ : ∃ w, w = World.exec PayoutCall.code (freshReports fun _ => 2000) ⟨twoPending, []⟩
      (oneByOne [.verifyBatch (· + 10) [1, 2] "monday" 0, .claim,
        .report 10 (.matched ⟨"trade-1", 2000⟩ [1, 2]) fun _ => false] 5) := ⟨_, rfl⟩
  have hruns : Runs PayoutCall.code (freshReports fun _ => 2000) ⟨twoPending, []⟩ w := by
    rw [hw]
    exact World.exec_runs _ _ _ _
  refine ⟨w, hruns, ?_, transfers_pay_once (twoPending_sound _) hruns⟩
  rw [hw]
  decide

/-- Both withdrawals are looked up before either is marked: each job's list of used numbers is empty, and one
transfer is reported for both. -/
theorem transfer_pays_twice : ∃ w : World Payouts PayoutSite DomainError Unit,
    Runs PayoutCall.code (trueReports fun _ => 1000) ⟨twoPending, []⟩ w ∧
      w.db.withdrawals.rows.map (·.alipayTradeNo) = [some "trade-1", some "trade-1"] ∧
      ¬ PaidByOneTransfer (fun _ => 1000) w.db := by
  obtain ⟨w, hw⟩ : ∃ w, w = World.exec PayoutCall.code (trueReports fun _ => 1000) ⟨twoPending, []⟩
      (oneByOne [.verify 10 1 none 0, .verify 11 2 none 1, .claim, .claim,
        .report 10 (.matched ⟨"trade-1", 1000⟩ [1]) fun _ => false,
        .report 11 (.matched ⟨"trade-1", 1000⟩ [2]) fun _ => false] 5) := ⟨_, rfl⟩
  refine ⟨w, ?_, ?_, fun hpaid => ?_⟩
  · rw [hw]
    exact World.exec_runs _ _ _ _
  · rw [hw]
    decide
  · have hsum := hpaid.sums "trade-1"
    rw [hw] at hsum
    revert hsum
    decide

end Gmshop
