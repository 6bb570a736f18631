import Mathlib
import GmshopEdge.Lib.Apportion
import GmshopEdge.Refunds.Split

/-!
# The shares of refunds

Along the succeeded refunds of an order that was paid from the balances, what `promotionRefundSplit` returns in cash,
in rewards and outside never exceeds what was paid from there, and the last refund returns exactly the rest.
-/

namespace Gmshop

open List Apportion

/-! ## The method -/

def SplitPart.give (p : SplitPart) : SplitPart := { p with amount := p.amount + 1 }

theorem handOutCents_eq (n : Nat) (parts : List SplitPart) : handOutCents n parts = handOut SplitPart.give n parts := by
  induction parts generalizing n with
  | nil => cases n <;> rfl
  | cons p parts ih =>
    cases n with
    | zero => rfl
    | succ n =>
      rw [handOutCents, if_neg (by omega), handOut, show ((n + 1 : Nat) : Int) - 1 = n by omega, ih]
      rfl

def sharesOf (delta : Nat) (weights : List Nat) : List SplitPart :=
  weights.zipIdx.map fun w =>
    { index := w.2, amount := (floorShare delta weights.sum w.1 : Nat)
      remainder := (remainder delta weights.sum w.1 : Nat) }

def sortedShares (delta : Nat) (weights : List Nat) : List SplitPart :=
  (sharesOf delta weights).insertionSort fun a b => SplitPart.before a b = true

variable {p : SplitPart} {rs : List Refund} {order : SplitOrder} {hold : OrderBalanceHold}

section Method

variable {delta : Nat} {weights : List Nat}

theorem sharesOf_amount : (sharesOf delta weights).map (·.amount) =
    (weights.map (floorShare delta weights.sum)).map (Nat.cast : Nat → Int) := by
  have hfst : weights = weights.zipIdx.map Prod.fst := (zipIdx_map_fst 0 weights).symm
  calc (sharesOf delta weights).map (·.amount)
      = weights.zipIdx.map fun w => ((floorShare delta weights.sum w.1 : Nat) : Int) := by
        rw [sharesOf, map_map]
        rfl
    _ = (weights.zipIdx.map Prod.fst).map fun w => ((floorShare delta weights.sum w : Nat) : Int) := by
        rw [map_map]
        rfl
    _ = _ := by
        rw [← hfst, map_map]
        rfl

theorem sharesOf_index : (sharesOf delta weights).map (·.index) = range weights.length := by
  rw [sharesOf, map_map, range_eq_range', ← zipIdx_map_snd 0 weights]
  rfl

theorem mem_sharesOf (h : p ∈ sharesOf delta weights) :
    ∃ w, weights[p.index]? = some w ∧ p.amount = floorShare delta weights.sum w ∧
      p.remainder = remainder delta weights.sum w := by
  obtain ⟨w, hw, rfl⟩ := mem_map.mp h
  obtain ⟨hlt, hget⟩ := mem_zipIdx' hw
  exact ⟨w.1, by rw [getElem?_eq_getElem hlt, hget], rfl, rfl⟩

theorem splitParts_eq (hpos : 0 < weights.sum) : splitParts (weights.map (Nat.cast : Nat → Int)) delta weights.sum =
    handOut SplitPart.give (spare delta weights.sum weights) (sortedShares delta weights) := by
  have hparts : ((weights.map (Nat.cast : Nat → Int)).zipIdx.map fun w : Int × Nat =>
      ({ index := w.2, amount := (w.1 * (delta : Int)).tdiv weights.sum
         remainder := (w.1 * (delta : Int)).tmod weights.sum } : SplitPart)) = sharesOf delta weights := by
    rw [zipIdx_map, map_map, sharesOf]
    refine map_congr_left fun w _ => ?_
    simp only [Function.comp_apply, Prod.map, id, floorShare, remainder]
    rw [Nat.mul_comm delta]
    generalize weights.sum = sum
    norm_cast
  have hspare : (delta : Int) - ((sharesOf delta weights).map (·.amount)).sum = spare delta weights.sum weights := by
    have hle := floors_le delta hpos
    rw [sharesOf_amount, ← Nat.cast_list_sum, spare]
    omega
  unfold splitParts
  dsimp only
  rw [hparts, hspare, handOutCents_eq, sortedShares]

theorem partAmount_of_mem {parts : List SplitPart} (h : (parts.map (·.index)).Nodup) (hp : p ∈ parts) :
    partAmount parts p.index = p.amount := by
  cases hfind : parts.find? fun q => q.index == p.index with
  | none =>
    have := find?_eq_none.mp hfind p hp
    simp at this
  | some q =>
    have hq : q.index = p.index := by simpa using find?_some hfind
    obtain rfl := inj_on_of_nodup_map h (mem_of_find?_eq_some hfind) hp hq
    rw [partAmount, hfind]
    rfl

variable (delta weights) in
/-- Each part is within its weight, and together they are all of `delta`. -/
theorem splitParts_share (hpos : 0 < weights.sum) (hdelta : delta ≤ weights.sum) : ((List.range weights.length).map
      (partAmount (splitParts (weights.map (Nat.cast : Nat → Int)) delta weights.sum))).sum = delta ∧
    ∀ i (w : Nat), weights[i]? = some w →
      0 ≤ partAmount (splitParts (weights.map (Nat.cast : Nat → Int)) delta weights.sum) i ∧
        partAmount (splitParts (weights.map (Nat.cast : Nat → Int)) delta weights.sum) i ≤ w := by
  rw [splitParts_eq hpos]
  have hperm : (sortedShares delta weights).Perm (sharesOf delta weights) := List.perm_insertionSort _ _
  have hindex : ((handOut SplitPart.give (spare delta weights.sum weights) (sortedShares delta weights)).map
      (·.index)).Perm (List.range weights.length) := by
    have hsame : (handOut SplitPart.give (spare delta weights.sum weights) (sortedShares delta weights)).map (·.index) =
        (sortedShares delta weights).map (·.index) := map_handOut (fun p => (rfl : p.give.index = p.index)) _ _
    have hrange : (sharesOf delta weights).map (·.index) = List.range weights.length := sharesOf_index
    rw [hsame, ← hrange]
    exact hperm.map _
  have hnodup := hindex.nodup_iff.mpr List.nodup_range
  have hremainders : (sharesOf delta weights).countP (0 < ·.remainder.toNat) =
      weights.countP (0 < remainder delta weights.sum ·) := by
    have hfst : weights.zipIdx.map Prod.fst = weights := List.zipIdx_map_fst 0 weights
    have hcount := congrArg (List.countP (0 < remainder delta weights.sum ·)) hfst
    rw [List.countP_map] at hcount
    rw [sharesOf, List.countP_map]
    exact hcount
  have henough := spare_le_positive delta hpos
  have hdesc : (sortedShares delta weights).Pairwise fun a b => b.remainder.toNat ≤ a.remainder.toNat := by
    refine insertionSort_desc (fun a b h => ?_) (fun a b h => ?_) _
    · unfold SplitPart.before at h
      split at h
      · omega
      · simp only [decide_eq_true_eq] at h
        omega
    · unfold SplitPart.before at h
      split at h
      · omega
      · simp only [decide_eq_true_eq] at h
        omega
  have hpositive : ∀ p ∈ (sortedShares delta weights).take (spare delta weights.sum weights), 0 < p.remainder.toNat := by
    refine take_positive hdesc ?_
    rw [hperm.countP_eq, hremainders]
    exact henough
  refine ⟨?_, fun i w hw => ?_⟩
  · have hlength : spare delta weights.sum weights ≤ (sortedShares delta weights).length := by
      rw [hperm.length_eq, sharesOf, List.length_map, List.length_zipIdx]
      exact Nat.le_trans henough List.countP_le_length
    calc ((List.range weights.length).map _).sum
        = (((handOut SplitPart.give (spare delta weights.sum weights) (sortedShares delta weights)).map (·.index)).map
            (partAmount (handOut SplitPart.give (spare delta weights.sum weights) (sortedShares delta weights)))).sum :=
          ((hindex.map _).sum_eq).symm
      _ = ((handOut SplitPart.give (spare delta weights.sum weights) (sortedShares delta weights)).map (·.amount)).sum := by
          rw [List.map_map]
          congr 1
          exact List.map_congr_left fun p hp => partAmount_of_mem hnodup hp
      _ = ((sharesOf delta weights).map (·.amount)).sum + (spare delta weights.sum weights : Nat) := by
          rw [sum_handOut (f := SplitPart.amount) (fun _ => rfl) hlength, (hperm.map _).sum_eq]
      _ = delta := by
          have hle := floors_le delta hpos
          rw [sharesOf_amount, ← Nat.cast_list_sum, spare]
          omega
  · have hi : i ∈ List.range weights.length := List.mem_range.mpr (List.getElem?_eq_some_iff.mp hw).1
    obtain ⟨p, hp, rfl⟩ := List.mem_map.mp (hindex.mem_iff.mpr hi)
    rw [partAmount_of_mem hnodup hp]
    rcases mem_handOut hp with hp | ⟨q, hq, rfl⟩
    · obtain ⟨w', hw', hamount, -⟩ := mem_sharesOf (hperm.mem_iff.mp hp)
      obtain rfl := Option.some.inj (hw'.symm.trans hw)
      have : floorShare delta weights.sum w' ≤ w' := floorShare_le hdelta
      omega
    · obtain ⟨w', hw', hamount, hrest⟩ := mem_sharesOf (hperm.mem_iff.mp ((List.take_sublist _ _).subset hq))
      obtain rfl := Option.some.inj (hw'.symm.trans hw)
      have hroom := hpositive q hq
      rw [hrest] at hroom
      have := floorShare_lt hdelta (by simpa using hroom)
      show 0 ≤ q.amount + 1 ∧ q.amount + 1 ≤ (w' : Int)
      omega

end Method

/-! ## The refunds of an order -/

/-- The order was paid with what its hold took from the balances and with the external payment. -/
structure PaidFrom (order : SplitOrder) (hold : OrderBalanceHold) : Prop where
  consumed : order.hold = some hold
  paid : hold.cashMinor + hold.rewardMinor + hold.externalMinor = order.paidMinor

def Refund.externalReturnMinor (r : Refund) : Int := r.amountMinor - r.cashReturnMinor - r.rewardReturnMinor

/-- Succeeded refunds of the order, each with the split of those before it. -/
inductive SplitRefunds (order : SplitOrder) : List Refund → Prop
  | start : SplitRefunds order []
  | refund {rs rs' : List Refund} {r : Refund} {split : PromotionSplit} (h : SplitRefunds order rs)
      (hsplit : computeSplit order rs r.amountMinor = .ok split) (hcash : r.cashReturnMinor = split.cash)
      (hreward : r.rewardReturnMinor = split.reward) (hrows : rs'.Perm (r :: rs)) : SplitRefunds order rs'

def refundedMinor (rs : List Refund) : Int := (rs.map fun r => (r.amountMinor : Int)).sum
def cashReturned (rs : List Refund) : Int := (rs.map (·.cashReturnMinor)).sum
def rewardReturned (rs : List Refund) : Int := (rs.map (·.rewardReturnMinor)).sum
def externalReturned (rs : List Refund) : Int := (rs.map (·.externalReturnMinor)).sum

theorem externalReturned_eq (rs : List Refund) :
    externalReturned rs = refundedMinor rs - cashReturned rs - rewardReturned rs := by
  induction rs with
  | nil => rfl
  | cons r rs ih =>
    simp only [externalReturned, refundedMinor, cashReturned, rewardReturned, map_cons, sum_cons,
      Refund.externalReturnMinor] at ih ⊢
    omega

structure ReturnedWithin (hold : OrderBalanceHold) (rs : List Refund) : Prop where
  cash : 0 ≤ cashReturned rs ∧ cashReturned rs ≤ (hold.cashMinor : Nat)
  reward : 0 ≤ rewardReturned rs ∧ rewardReturned rs ≤ (hold.rewardMinor : Nat)
  external : 0 ≤ externalReturned rs ∧ externalReturned rs ≤ (hold.externalMinor : Nat)

def PartWithin (part left : Int) : Prop := 0 ≤ part ∧ part ≤ left

theorem computeSplit_pos {amount : Minor} {split : PromotionSplit}
    (h : computeSplit order rs amount = .ok split) : 0 < amount := by
  unfold computeSplit at h
  dsimp only at h
  split at h
  · cases h
  · rename_i hc
    by_contra hzero
    exact hc (Or.inr (Or.inl (by exact_mod_cast Nat.le_of_not_lt hzero)))

theorem computeSplit_within (hpaid : PaidFrom order hold) (h : ReturnedWithin hold rs) {amount : Nat}
    (hpos : 0 < amount) (hroom : refundedMinor rs + amount ≤ (order.paidMinor : Nat)) :
    ∃ split, computeSplit order rs amount = .ok split ∧
      PartWithin split.cash ((hold.cashMinor : Nat) - cashReturned rs) ∧
      PartWithin split.reward ((hold.rewardMinor : Nat) - rewardReturned rs) ∧
      PartWithin split.external ((hold.externalMinor : Nat) - externalReturned rs) ∧
      split.cash + split.reward + split.external = amount := by
  have hexternal := externalReturned_eq rs
  have htotal : ((hold.cashMinor : Nat) : Int) + (hold.rewardMinor : Nat) + (hold.externalMinor : Nat) =
      (order.paidMinor : Nat) := by
    exact_mod_cast hpaid.paid
  obtain ⟨⟨hcash0, hcash⟩, ⟨hreward0, hreward⟩, hexternal0, hexternal'⟩ := h
  -- the three weights are natural numbers
  obtain ⟨cash, hc⟩ := Int.eq_ofNat_of_zero_le (Int.sub_nonneg_of_le hcash)
  obtain ⟨reward, hr⟩ := Int.eq_ofNat_of_zero_le (Int.sub_nonneg_of_le hreward)
  obtain ⟨external, he⟩ := Int.eq_ofNat_of_zero_le (Int.sub_nonneg_of_le hexternal')
  have hsum : (([cash, reward, external].sum : Nat) : Int) = (order.paidMinor : Nat) - refundedMinor rs := by
    simp only [sum_cons, sum_nil]
    omega
  have hweights : [((hold.cashMinor : Nat) : Int) - cashReturned rs, (hold.rewardMinor : Nat) - rewardReturned rs,
      (order.paidMinor : Nat) - refundedMinor rs - ((hold.cashMinor : Nat) - cashReturned rs) -
        ((hold.rewardMinor : Nat) - rewardReturned rs)] = [cash, reward, external].map (Nat.cast : Nat → Int) := by
    simp only [map_cons, map_nil, cons.injEq, and_true]
    refine ⟨hc, hr, ?_⟩
    omega
  have hdelta : amount ≤ [cash, reward, external].sum := by omega
  have hpositive : 0 < [cash, reward, external].sum := by omega
  obtain ⟨hall, hpart⟩ := splitParts_share amount [cash, reward, external] hpositive hdelta
  have hcashPart := hpart 0 cash rfl
  have hrewardPart := hpart 1 reward rfl
  have hexternalPart := hpart 2 external rfl
  rw [hsum, ← hweights] at hall hcashPart hrewardPart hexternalPart
  simp only [length_cons, length_nil, range_succ, range_zero, nil_append, cons_append,
    map_cons, map_nil, sum_cons, sum_nil] at hall
  have hbefore : (rs.map fun r => (r.amountMinor : Int)).sum = refundedMinor rs := rfl
  have hrefused : ¬ (((order.paidMinor : Nat) : Int) ≤ 0 ∨ ((amount : Nat) : Int) ≤ 0 ∨
      ((order.paidMinor : Nat) : Int) < refundedMinor rs + amount) := by omega
  unfold computeSplit
  rw [hbefore, show (rs.map (·.cashReturnMinor)).sum = cashReturned rs from rfl,
    show (rs.map (·.rewardReturnMinor)).sum = rewardReturned rs from rfl, hpaid.consumed]
  dsimp only [Option.map_some, Option.getD_some]
  refine ⟨_, if_neg hrefused, ?_, ?_, ?_, ?_⟩
  · rw [← hc] at hcashPart
    exact hcashPart
  · rw [← hr] at hrewardPart
    exact hrewardPart
  · -- the rest of the refund is the third part
    unfold PartWithin
    dsimp only
    omega
  · dsimp only
    omega

theorem SplitRefunds.within (hpaid : PaidFrom order hold) (h : SplitRefunds order rs) : ReturnedWithin hold rs := by
  induction h with
  | start => exact ⟨⟨le_rfl, Int.natCast_nonneg _⟩, ⟨le_rfl, Int.natCast_nonneg _⟩, ⟨le_rfl, Int.natCast_nonneg _⟩⟩
  | @refund rs rs' r split h hsplit hcash hreward hrows ih =>
    have hok := computeSplit_ok hsplit
    have hpos : 0 < r.amountMinor := computeSplit_pos hsplit
    obtain ⟨split', hsplit', hcashPart, hrewardPart, hexternalPart, hall⟩ :=
      computeSplit_within hpaid ih hpos hok.2.1
    obtain rfl := Except.ok.inj (hsplit.symm.trans hsplit')
    have hexternal : r.externalReturnMinor = split.external := by
      rw [Refund.externalReturnMinor, hcash, hreward]
      omega
    have hc : cashReturned rs' = split.cash + cashReturned rs := by
      rw [cashReturned, (hrows.map _).sum_eq, map_cons, sum_cons, hcash, cashReturned]
    have hr : rewardReturned rs' = split.reward + rewardReturned rs := by
      rw [rewardReturned, (hrows.map _).sum_eq, map_cons, sum_cons, hreward, rewardReturned]
    have he : externalReturned rs' = split.external + externalReturned rs := by
      rw [externalReturned, (hrows.map _).sum_eq, map_cons, sum_cons, hexternal, externalReturned]
    unfold PartWithin at hcashPart hrewardPart hexternalPart
    have hicash := ih.cash
    have hireward := ih.reward
    have hiexternal := ih.external
    refine ⟨?_, ?_, ?_⟩
    · rw [hc]
      omega
    · rw [hr]
      omega
    · rw [he]
      omega

/-- Every sequence of refunds of an order stays within what its hold and its external payment gave, returns exactly
that once everything is refunded, and can go on with every amount up to what is left, in parts that are not negative
and make up the amount. -/
theorem promotionRefundSplit_shares {order : SplitOrder} {hold : OrderBalanceHold} (hpaid : PaidFrom order hold)
    {rs : List Refund} (h : SplitRefunds order rs) :
    ReturnedWithin hold rs ∧ (refundedMinor rs = (order.paidMinor : Nat) → cashReturned rs = (hold.cashMinor : Nat) ∧
        rewardReturned rs = (hold.rewardMinor : Nat) ∧ externalReturned rs = (hold.externalMinor : Nat)) ∧
      ∀ amount : Nat, 0 < amount → refundedMinor rs + amount ≤ (order.paidMinor : Nat) →
        ∃ split, computeSplit order rs amount = .ok split ∧ 0 ≤ split.cash ∧ 0 ≤ split.reward ∧
          0 ≤ split.external ∧ split.cash + split.reward + split.external = amount := by
  have hwithin := h.within hpaid
  refine ⟨hwithin, fun hall => ?_, fun amount hpos hroom => ?_⟩
  · have hexternal := externalReturned_eq rs
    have htotal : ((hold.cashMinor : Nat) : Int) + (hold.rewardMinor : Nat) + (hold.externalMinor : Nat) =
        (order.paidMinor : Nat) := by
      exact_mod_cast hpaid.paid
    obtain ⟨⟨-, hcash⟩, ⟨-, hreward⟩, -, hext⟩ := hwithin
    omega
  · obtain ⟨split, hsplit, hcash, hreward, hexternal, hall⟩ := computeSplit_within hpaid hwithin hpos hroom
    exact ⟨split, hsplit, hcash.1, hreward.1, hexternal.1, hall⟩

/-- An order of 100, 33 of it from the cash balance, 34 from the rewards. -/
def splitPaid : SplitOrder where
  id := 1
  status := .paid
  version := 2
  paidMinor := 100
  referralRewardMinor := 0
  hold := some ⟨1, 1, 33, 34, 33, .consumed⟩

def firstRefund : Refund where
  id := 1
  orderId := 1
  paymentAttemptId := none
  idempotencyKey := 1
  amountMinor := 50
  paymentAmountMinor := 16
  orderStatusBefore := .paid
  status := .succeeded
  cashReturnMinor := 17
  rewardReturnMinor := 17

theorem promotionRefundSplit_shares_half : ∃ split, computeSplit splitPaid [firstRefund] 50 = .ok split ∧
    split.cash = 16 ∧ split.reward = 17 ∧ split.external = 17 ∧ ReturnedWithin ⟨1, 1, 33, 34, 33, .consumed⟩ [firstRefund] := by
  have hpaid : PaidFrom splitPaid ⟨1, 1, 33, 34, 33, .consumed⟩ := ⟨rfl, rfl⟩
  have hfirst : SplitRefunds splitPaid [firstRefund] :=
    .refund .start (r := firstRefund) rfl rfl rfl (.refl _)
  obtain ⟨hwithin, -, hnext⟩ := promotionRefundSplit_shares hpaid hfirst
  obtain ⟨split, hsplit, -⟩ := hnext 50 (by decide) (by decide)
  obtain rfl := Except.ok.inj hsplit
  exact ⟨_, hsplit, rfl, rfl, rfl, hwithin⟩

end Gmshop
