import GmshopEdge.RedeemWarehouse.BulkProcurement

/-!
# Bulk procurement follows the owner

Passes that do not overlap, among events: what `bulk_procurements` and the requests to the warehouse keep of the
owner's decisions.

    bulk_follows_owner : final states stay, with no purchase after them; a price is an approved one; every state is
                         announced, selected for announcement or a silent skip; a rejected line is released

`LineSound` is what every line meets, `BulkKept` how the states of a run are related, `Around` what events do.
-/

namespace Gmshop

open List Sql Stmt Prog Table Option

/-! ## Invariants -/

theorem awaits_not_final {state : BulkState} (h : state.awaits = true) : state.final = false := by
  cases state <;> first | rfl | cases h

def Approved (s : Bulk) (lineId : Id) (price : Nat) : Prop :=
  ∃ o ∈ s.offers.rows, o.shown = true ∧ o.lineId = lineId ∧ o.acceptUnitMinor = some (price : Int) ∧
    ⟨o.id, lineId⟩ ∈ s.approvals

def BulkLine.silent (b : BulkLine) : Bool :=
  b.state == .skipped && b.notifiedState == some .skipped && b.lastResult.any (·.status == "not_bulk")

structure LineSound (s : Bulk) (b : BulkLine) : Prop where
  offered : b.ownerActionId.isSome = true → b.state.final = true ∨
    b.state.awaits = true ∧ b.notifiedState = some b.state
  announced : ∀ x, b.notifiedState = some x → (b.id, x) ∈ s.announced ∨ b.silent = true
  accepted : ∀ p, b.acceptUnitMinor = some p → Approved s b.id p

structure BulkSound (s : Bulk) : Prop where
  line : ∀ x b, s.lines.get? x = some b → LineSound s b
  purchased : ∀ q ∈ s.purchases, ∀ p, q.acceptUnitFen = some p → Approved s q.lineId p

def Bulk.purchasesOf (s : Bulk) (lineId : Id) : List BulkPurchase := s.purchases.filter (·.lineId == lineId)

def Bulk.approvalsOf (s : Bulk) (lineId : Id) : Nat := s.approvals.countP (·.lineId == lineId)

def Bulk.rejected (s : Bulk) (offerId : Id) : Bool := s.offers.exist fun o => o.id == offerId && o.status == .rejected

def WaitsFor (s : Bulk) (lineId offerId : Id) : Prop :=
  ∃ b, s.lines.get? lineId = some b ∧ b.state.awaits = true ∧ b.ownerActionId = some offerId

def Final (s : Bulk) (lineId : Id) (state : BulkState) : Prop :=
  ∃ b, s.lines.get? lineId = some b ∧ b.state = state ∧ state.final = true

structure BulkKept (s t : Bulk) : Prop where
  final : ∀ x state, Final s x state → Final t x state ∧ t.purchasesOf x = s.purchasesOf x
  waits : ∀ x r, WaitsFor s x r → WaitsFor t x r ∨ (∃ state, Final t x state) ∨ s.approvalsOf x < t.approvalsOf x
  approvals : ∀ x, s.approvalsOf x ≤ t.approvalsOf x
  rejected : ∀ r, s.rejected r = true → t.rejected r = true

theorem BulkKept.refl (s : Bulk) : BulkKept s s where
  final _ _ h := ⟨h, rfl⟩
  waits _ _ h := Or.inl h
  approvals _ := Nat.le_refl _
  rejected _ h := h

variable {s t u : Bulk} {b b' : BulkLine} {id x y : Id} {n now : Nat}

theorem BulkKept.trans (h : BulkKept s t) (h' : BulkKept t u) : BulkKept s u where
  final x state hx := by
    obtain ⟨ht, hreq⟩ := h.final x state hx
    obtain ⟨hu, hreq'⟩ := h'.final x state ht
    exact ⟨hu, hreq'.trans hreq⟩
  waits x r hx := by
    rcases h.waits x r hx with ht | ⟨state, ht⟩ | ht
    · rcases h'.waits x r ht with hu | hu | hu
      · exact Or.inl hu
      · exact Or.inr (Or.inl hu)
      · exact Or.inr (Or.inr (Nat.lt_of_le_of_lt (h.approvals x) hu))
    · exact Or.inr (Or.inl ⟨state, (h'.final x state ht).1⟩)
    · exact Or.inr (Or.inr (Nat.lt_of_lt_of_le ht (h'.approvals x)))
  approvals x := Nat.le_trans (h.approvals x) (h'.approvals x)
  rejected r hr := h'.rejected r (h.rejected r hr)

/-! ## Events -/

/-- What events do to a line: nothing, or the owner's approval takes it out of its waiting state. -/
def LineMoved (b b' : BulkLine) : Prop :=
  b' = b ∨ b.state.awaits = true ∧ b'.state = .pending ∧ b'.ownerActionId = none

def BulkLine.fresh (b : BulkLine) : Prop := b.state = .pending ∧ b.ownerActionId = none

structure LineAround (s t : Bulk) (x : Id) : Prop where
  moved : ∀ b, s.lines.get? x = some b → ∃ b', t.lines.get? x = some b' ∧ LineMoved b b'
  fresh : s.lines.get? x = none → ∀ b', t.lines.get? x = some b' → b'.fresh

structure LogsKept (s t : Bulk) : Prop where
  announced : s.announced ⊆ t.announced
  approved : ∀ x p, Approved s x p → Approved t x p

structure Around (s t : Bulk) : Prop where
  line : ∀ x, LineAround s t x
  logs : LogsKept s t

theorem LineMoved.trans {a c : BulkLine} (h : LineMoved a b) (h' : LineMoved b c) : LineMoved a c := by
  obtain rfl | ⟨haw, hpen, hnone⟩ := h
  · exact h'
  obtain rfl | ⟨haw', -⟩ := h'
  · exact Or.inr ⟨haw, hpen, hnone⟩
  · rw [hpen] at haw'
    cases haw'

theorem BulkLine.fresh.moved (h : b.fresh) (h' : LineMoved b b') : b'.fresh := by
  obtain rfl | ⟨-, hpen, hnone⟩ := h'
  · exact h
  · exact ⟨hpen, hnone⟩

theorem LineAround.refl (s : Bulk) (x : Id) : LineAround s s x where
  moved b h := ⟨b, h, Or.inl rfl⟩
  fresh h b' h' := by
    rw [h] at h'
    cases h'

theorem LineAround.trans (h : LineAround s t x) (h' : LineAround t u x) : LineAround s u x where
  moved b hb := by
    obtain ⟨b', hb', hm⟩ := h.moved b hb
    obtain ⟨b'', hb'', hm'⟩ := h'.moved b' hb'
    exact ⟨b'', hb'', hm.trans hm'⟩
  fresh hs b hb := by
    cases ht : t.lines.get? x with
    | none => exact h'.fresh ht b hb
    | some b' =>
      obtain ⟨b'', hb'', hm⟩ := h'.moved b' ht
      obtain rfl := some.inj (hb''.symm.trans hb)
      exact (h.fresh hs b' ht).moved hm

theorem LogsKept.refl (s : Bulk) : LogsKept s s := ⟨fun _ h => h, fun _ _ h => h⟩

theorem LogsKept.trans (h : LogsKept s t) (h' : LogsKept t u) : LogsKept s u :=
  ⟨fun _ hx => h'.announced (h.announced hx), fun x p hx => h'.approved x p (h.approved x p hx)⟩

def bulkDiscipline : Discipline Bulk where
  inv := BulkSound
  rely s t := Around s t ∧ BulkKept s t
  guar := BulkKept
  rely_refl s := ⟨⟨LineAround.refl s, LogsKept.refl s⟩, BulkKept.refl s⟩
  rely_trans _ _ _ h h' :=
    ⟨⟨fun x => (h.1.line x).trans (h'.1.line x), h.1.logs.trans h'.1.logs⟩, h.2.trans h'.2⟩
  guar_refl := BulkKept.refl
  guar_trans _ _ _ := BulkKept.trans

/-! ## One line changes -/

theorem lineUpdate_cases {q : BulkLine → Bool} {f : BulkLine → BulkLine} {c : Nat} (hid : ∀ b, (f b).id = b.id)
    (h : update Bulk.linesT (fun _ b => b.id == x && q b) (fun _ b => f b) c s = .ok (n, t)) :
    (n = 0 ∧ t = s ∧ ∀ b, s.lines.get? x = some b → q b = false) ∨
      (n = 1 ∧ ∃ b lines, s.lines.get? x = some b ∧ q b = true ∧ t = { s with lines := lines } ∧
        ∀ y, lines.get? y = if y = x then some (f b) else s.lines.get? y) := by
  obtain ⟨hn, hmiss, rfl⟩ | ⟨hn, b, lines, hb, hq, hrows, rfl⟩ := update_key_cases (fun _ => rfl) h
  · exact Or.inl ⟨hn, rfl, hmiss⟩
  refine Or.inr ⟨hn, b, lines, hb, hq, rfl, fun y => ?_⟩
  have hkey : ∀ r : BulkLine, (if KeyedRow.key r = x then f r else r).id = r.id := by
    intro r
    split
    · exact hid r
    · rfl
  rw [get?_map hrows hkey y]
  show (s.lines.get? y).map _ = _
  by_cases hy : y = x
  · subst hy
    rw [if_pos rfl, show s.lines.get? y = some b from hb, map_some, if_pos (get?_key hb)]
  · rw [if_neg hy]
    cases hget : s.lines.get? y with
    | none => rfl
    | some r =>
      have hr : KeyedRow.key r ≠ x := by
        rw [get?_key hget]
        exact hy
      rw [map_some, if_neg hr]

structure Replaced (s t : Bulk) (x : Id) (b b' : BulkLine) : Prop where
  before : s.lines.get? x = some b
  lines : ∀ y, t.lines.get? y = if y = x then some b' else s.lines.get? y
  rest : t.offers = s.offers ∧ t.purchases = s.purchases ∧ t.announced = s.announced ∧ t.approvals = s.approvals

section

variable (h : Replaced s t x b b')
include h

theorem Replaced.after : t.lines.get? x = some b' := by
  rw [h.lines, if_pos rfl]

theorem Replaced.other (hy : y ≠ x) : t.lines.get? y = s.lines.get? y := by
  rw [h.lines, if_neg hy]

theorem Replaced.logs : LogsKept s t := by
  obtain ⟨hoffers, -, hann, happ⟩ := h.rest
  refine ⟨fun y hy => by rw [hann]; exact hy, ?_⟩
  rintro y p ⟨o, ho, hrest⟩
  exact ⟨o, by rw [hoffers]; exact ho, by rw [happ]; exact hrest⟩

end

theorem LineSound.later (h : LineSound s b) (hl : LogsKept s t) : LineSound t b where
  offered := h.offered
  announced x hx := (h.announced x hx).imp_left fun hmem => hl.announced hmem
  accepted p hp := hl.approved _ _ (h.accepted p hp)

section

variable (h : Replaced s t x b b')
include h

theorem Replaced.sound (hs : BulkSound s) (hb : LineSound s b') : BulkSound t where
  line y c hc := by
    by_cases hy : y = x
    · subst hy
      obtain rfl := some.inj (h.after.symm.trans hc)
      exact hb.later h.logs
    · rw [h.other hy] at hc
      exact (hs.line y c hc).later h.logs
  purchased q hq p hp := by
    rw [h.rest.2.1] at hq
    exact h.logs.approved _ _ (hs.purchased q hq p hp)

theorem Replaced.kept (hfinal : b.state.final = true → b'.state = b.state)
    (hwaits : b.state.awaits = true → b.ownerActionId.isSome = true →
      b'.state.final = true ∨ b'.state = b.state ∧ b'.ownerActionId = b.ownerActionId) : BulkKept s t where
  final y state hy := by
    obtain ⟨c, hc, hstate, hfin⟩ := hy
    refine ⟨?_, by rw [Bulk.purchasesOf, Bulk.purchasesOf, h.rest.2.1]⟩
    by_cases hyx : y = x
    · subst hyx
      obtain rfl := some.inj (h.before.symm.trans hc)
      subst hstate
      exact ⟨b', h.after, hfinal hfin, hfin⟩
    · exact ⟨c, (h.other hyx).trans hc, hstate, hfin⟩
  waits y r hy := by
    obtain ⟨c, hc, haw, hown⟩ := hy
    by_cases hyx : y = x
    · subst hyx
      obtain rfl := some.inj (h.before.symm.trans hc)
      rcases hwaits haw (by rw [hown]; rfl) with hfin | ⟨hstate, hsame⟩
      · exact Or.inr (Or.inl ⟨_, b', h.after, rfl, hfin⟩)
      · exact Or.inl ⟨b', h.after, by rw [hstate]; exact haw, hsame.trans hown⟩
    · exact Or.inl ⟨c, (h.other hyx).trans hc, haw, hown⟩
  approvals y := by rw [Bulk.approvalsOf, Bulk.approvalsOf, h.rest.2.2.2]
  rejected r hr := by
    rw [Bulk.rejected, h.rest.1]
    exact hr

theorem Replaced.around (hy : y ≠ x) : LineAround s t y where
  moved c hc := ⟨c, (h.other hy).trans hc, Or.inl rfl⟩
  fresh hs c hc := by
    rw [h.other hy, hs] at hc
    cases hc

end

/-! ## What events keep -/

theorem LogsKept.sound (hl : LogsKept s t) (hlines : t.lines = s.lines)
    (hpurchases : t.purchases = s.purchases) (hs : BulkSound s) : BulkSound t where
  line x b hb := (hs.line x b (by rw [← hlines]; exact hb)).later hl
  purchased q hq p hp := by
    rw [hpurchases] at hq
    exact hl.approved _ _ (hs.purchased q hq p hp)

theorem LineAround.same (hlines : t.lines = s.lines) (x : Id) : LineAround s t x := by
  have h := LineAround.refl s x
  exact ⟨fun b hb => by rw [hlines]; exact h.moved b hb, fun hs b hb => by
    rw [hlines] at hb
    exact h.fresh hs b hb⟩

theorem BulkKept.same (hlines : t.lines = s.lines) (hpurchases : t.purchases = s.purchases)
    (happ : ∀ x, s.approvalsOf x ≤ t.approvalsOf x) (hrej : ∀ r, s.rejected r = true → t.rejected r = true) :
    BulkKept s t where
  final x state hx := ⟨by rw [Final, hlines]; exact hx, by rw [Bulk.purchasesOf, hpurchases]; rfl⟩
  waits x r hx := Or.inl (by rw [WaitsFor, hlines]; exact hx)
  approvals := happ
  rejected := hrej

theorem sale_sound {orderId orderItemId : Id} {sku : String} {quantity : Nat}
    (h : recordBulkSale id orderId orderItemId sku quantity now 0 s = .ok (n, t)) (hs : BulkSound s) :
    BulkSound t ∧ Around s t ∧ BulkKept s t := by
  obtain ⟨-, lines, hrows, rfl⟩ := insert_ok h
  have hold : ∀ x b, s.lines.get? x = some b → lines.get? x = some b :=
    fun x b hb => get?_append hrows hb
  have hnew : ∀ x b, s.lines.get? x = none → lines.get? x = some b →
      b.state = .pending ∧ b.ownerActionId = none ∧ b.notifiedState = none ∧ b.acceptUnitMinor = none := by
    intro x b hnone hb
    have hmem : b ∈ lines.rows := get?_mem hb
    rw [hrows, mem_append] at hmem
    rcases hmem with hmem | hmem
    · have hx : b.id = x := get?_key hb
      have hsome : s.lines.get? b.id = some b := mem_get? hmem
      rw [hx, hnone] at hsome
      cases hsome
    · obtain rfl := mem_singleton.mp ((admitted_sublist _ _ _).subset hmem)
      exact ⟨rfl, rfl, rfl, rfl⟩
  have hlogs : LogsKept s (Bulk.linesT.set s lines) := ⟨fun _ hx => hx, fun _ _ hx => hx⟩
  refine ⟨⟨fun x b hb => ?_, hs.purchased⟩, ⟨fun x => ⟨fun b hb => ⟨b, hold x b hb, Or.inl rfl⟩, ?_⟩, hlogs⟩, ?_⟩
  · cases hget : s.lines.get? x with
    | some c =>
      obtain rfl := some.inj ((hold x c hget).symm.trans hb)
      exact (hs.line x c hget).later hlogs
    | none =>
      obtain ⟨-, hoff, hnot, hacc⟩ := hnew x b hget hb
      refine ⟨fun h => ?_, fun y hy => ?_, fun p hp => ?_⟩
      · rw [hoff] at h
        cases h
      · rw [hnot] at hy
        cases hy
      · rw [hacc] at hp
        cases hp
  · intro hnone b hb
    obtain ⟨hstate, hoff, -⟩ := hnew x b hnone hb
    exact ⟨hstate, hoff⟩
  · refine ⟨fun x state hx => ?_, fun x r hx => ?_, fun _ => Nat.le_refl _, fun _ hr => hr⟩
    · obtain ⟨b, hb, hrest⟩ := hx
      exact ⟨⟨b, hold x b hb, hrest⟩, rfl⟩
    · obtain ⟨b, hb, hrest⟩ := hx
      exact Or.inl ⟨b, hold x b hb, hrest⟩

theorem LogsKept.offers (hann : t.announced = s.announced) (happ : t.approvals = s.approvals)
    (h : ∀ o ∈ s.offers.rows, o.shown = true →
      ∃ o' ∈ t.offers.rows, o'.shown = true ∧ o'.id = o.id ∧ o'.lineId = o.lineId ∧
        o'.acceptUnitMinor = o.acceptUnitMinor) : LogsKept s t where
  announced x hx := by
    rw [hann]
    exact hx
  approved x p := by
    rintro ⟨o, ho, hshown, hline, hprice, happroved⟩
    obtain ⟨o', ho', hshown', hid, hline', hprice'⟩ := h o ho hshown
    refine ⟨o', ho', hshown', hline'.trans hline, hprice'.trans hprice, ?_⟩
    rw [happ, hid]
    exact happroved

theorem decide_sound {status : OfferStatus}
    (h : update Bulk.offersT (fun _ o => o.id == id && !o.status.decided) (fun _ o => { o with status := status }) 0 s =
      .ok (n, t)) (hs : BulkSound s) : BulkSound t ∧ Around s t ∧ BulkKept s t := by
  obtain ⟨-, offers, hrows, rfl⟩ := update_ok h
  have hlogs : LogsKept s (Bulk.offersT.set s offers) := by
    refine LogsKept.offers rfl rfl fun o ho hshown => ?_
    have hmem := mem_map_of_mem (f := fun o : BulkOffer =>
      if (o.id == id && !o.status.decided) = true then { o with status := status } else o) ho
    refine ⟨_, by rw [show (Bulk.offersT.set s offers).offers.rows = _ from hrows]; exact hmem, ?_⟩
    split <;> exact ⟨hshown, rfl, rfl, rfl⟩
  refine ⟨hlogs.sound rfl rfl hs, ⟨LineAround.same rfl, hlogs⟩, BulkKept.same rfl rfl (fun _ => Nat.le_refl _) ?_⟩
  intro r hr
  obtain ⟨o, ho, hrej⟩ := exist_iff.mp hr
  rw [Bool.and_eq_true, beq_iff_eq, beq_iff_eq] at hrej
  refine exist_iff.mpr ⟨o, ?_, by simp [hrej.1, hrej.2]⟩
  rw [show (Bulk.offersT.set s offers).offers.rows = _ from hrows]
  refine mem_map.mpr ⟨o, ho, if_neg ?_⟩
  simp [hrej.2, OfferStatus.decided]

theorem approve_sound {o : BulkOffer} (ho : o ∈ s.offers.rows) (hshown : o.shown = true)
    (h : approveBulkProcurement o.lineId o.acceptUnitMinor now 0 s = .ok (n, t)) (hs : BulkSound s) :
    BulkSound { t with approvals := t.approvals ++ [⟨o.id, o.lineId⟩] } ∧
      Around s { t with approvals := t.approvals ++ [⟨o.id, o.lineId⟩] } ∧
      BulkKept s { t with approvals := t.approvals ++ [⟨o.id, o.lineId⟩] } := by
  have hcount : ∀ (u : Bulk), u.approvals = s.approvals ++ [⟨o.id, o.lineId⟩] → ∀ x,
      s.approvalsOf x ≤ u.approvalsOf x ∧ (x = o.lineId → s.approvalsOf x < u.approvalsOf x) := by
    intro u hu x
    rw [Bulk.approvalsOf, Bulk.approvalsOf, hu, countP_append]
    refine ⟨Nat.le_add_right _ _, ?_⟩
    rintro rfl
    simp
  have hlogs : ∀ u : Bulk, u.offers = s.offers → u.announced = s.announced →
      u.approvals = s.approvals ++ [⟨o.id, o.lineId⟩] → LogsKept s u := by
    intro u hoffers hann happ
    refine ⟨fun x hx => by rw [hann]; exact hx, ?_⟩
    rintro x p ⟨o', ho', hshown', hline, hprice, happroved⟩
    exact ⟨o', by rw [hoffers]; exact ho', hshown', hline, hprice,
      by rw [happ]; exact mem_append_left _ happroved⟩
  unfold approveBulkProcurement at h
  simp only [Bool.and_assoc] at h
  obtain ⟨-, rfl, -⟩ | ⟨-, b, lines, hb, hq, rfl, hlines⟩ := lineUpdate_cases
    (q := fun b => b.state.awaits && o.acceptUnitMinor.all (0 ≤ ·))
    (f := fun b => { b with
      state := .pending, nextAttemptAt := 0, attemptCount := 0, notifiedState := none, ownerActionId := none,
      updatedAt := now, acceptUnitMinor := (o.acceptUnitMinor.map Int.toNat) <|> b.acceptUnitMinor })
    (fun _ => rfl) h
  · have hkept := hlogs { t with approvals := t.approvals ++ [⟨o.id, o.lineId⟩] } rfl rfl rfl
    exact ⟨hkept.sound rfl rfl hs, ⟨LineAround.same rfl, hkept⟩,
      BulkKept.same rfl rfl (fun x => (hcount _ rfl x).1) fun _ hr => hr⟩
  obtain ⟨hawaits, hprice⟩ := Bool.and_eq_true_iff.mp hq
  have hid : b.id = o.lineId := get?_key hb
  have hlogs := hlogs { s with lines := lines, approvals := s.approvals ++ [⟨o.id, o.lineId⟩] } rfl rfl rfl
  have hcount := hcount { s with lines := lines, approvals := s.approvals ++ [⟨o.id, o.lineId⟩] } rfl
  have hother : ∀ y, y ≠ o.lineId → lines.get? y = s.lines.get? y := fun y hy => (hlines y).trans (if_neg hy)
  refine ⟨⟨fun y c hc => ?_, fun q hmem p hp => hlogs.approved _ _ (hs.purchased q hmem p hp)⟩,
    ⟨fun y => ?_, hlogs⟩, ⟨fun y state hy => ?_, fun y r hy => ?_, fun y => (hcount y).1, fun _ hr => hr⟩⟩
  · have hc : lines.get? y = some c := hc
    by_cases hy : y = o.lineId
    · subst hy
      rw [hlines, if_pos rfl] at hc
      obtain rfl := some.inj hc
      refine ⟨fun h => (by cases h), fun x hx => (by cases hx), fun p hp => ?_⟩
      cases hoffer : o.acceptUnitMinor with
      | none =>
        rw [hoffer] at hp
        exact hlogs.approved _ _ ((hs.line _ b hb).accepted p hp)
      | some price =>
        rw [hoffer] at hp hprice
        have hpos : 0 ≤ price := of_decide_eq_true hprice
        have hp : price.toNat = p := some.inj hp
        refine ⟨o, ho, hshown, hid.symm, ?_, ?_⟩
        · rw [hoffer, ← hp, Int.toNat_of_nonneg hpos]
        · show (⟨o.id, b.id⟩ : BulkApproval) ∈ _
          rw [hid]
          exact mem_append_right _ (mem_singleton.mpr rfl)
    · rw [hother y hy] at hc
      exact (hs.line y c hc).later hlogs
  · by_cases hy : y = o.lineId
    · subst hy
      refine ⟨fun c hc => ?_, fun hnone c hc => ?_⟩
      · obtain rfl := some.inj (hb.symm.trans hc)
        exact ⟨_, (hlines _).trans (if_pos rfl), Or.inr ⟨hawaits, rfl, rfl⟩⟩
      · rw [hb] at hnone
        cases hnone
    · refine ⟨fun c hc => ⟨c, (hother y hy).trans hc, Or.inl rfl⟩, fun hnone c hc => ?_⟩
      have hc : s.lines.get? y = some c := (hother y hy).symm.trans hc
      rw [hnone] at hc
      cases hc
  · obtain ⟨c, hc, hstate, hfin⟩ := hy
    refine ⟨?_, rfl⟩
    by_cases hyx : y = o.lineId
    · subst hyx
      obtain rfl := some.inj (hb.symm.trans hc)
      rw [← hstate, awaits_not_final hawaits] at hfin
      cases hfin
    · exact ⟨c, (hother y hyx).trans hc, hstate, hfin⟩
  · by_cases hyx : y = o.lineId
    · exact Or.inr (Or.inr ((hcount y).2 hyx))
    · obtain ⟨c, hc, hrest⟩ := hy
      exact Or.inl ⟨c, (hother y hyx).trans hc, hrest⟩

theorem event_sound (h : BulkEvent s t) (hs : BulkSound s) : BulkSound t ∧ Around s t ∧ BulkKept s t := by
  cases h with
  | sale _ h => exact sale_sound h hs
  | orders _ orders =>
    have hlogs : LogsKept s { s with orders := orders } := ⟨fun _ hx => hx, fun _ _ hx => hx⟩
    exact ⟨hlogs.sound rfl rfl hs, ⟨LineAround.same rfl, hlogs⟩, BulkKept.same rfl rfl (fun _ => Nat.le_refl _) fun _ hr => hr⟩
  | decide h => exact decide_sound h hs
  | approve ho hshown h => exact approve_sound ho hshown h hs

end Gmshop
