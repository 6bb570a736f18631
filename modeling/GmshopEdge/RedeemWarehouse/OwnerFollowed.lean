import GmshopEdge.RedeemWarehouse.OwnerDecisions

/-!
# A pass follows the owner

Each call of a pass is about one line: `Elsewhere` is what it leaves of the others, `forEach_safe` the rule of the
pass's loops. `pass_safe` is the pass among events, `bulk_follows_owner` the runs.
-/

namespace Gmshop

open List Sql Stmt Prog Table Option Bool

/-! ## One line at a time -/

structure Elsewhere (s t : Bulk) (x : Id) : Prop where
  line : ∀ y, y ≠ x → LineAround s t y
  logs : LogsKept s t
  kept : BulkKept s t

variable {s s₀ t u : Bulk} {x : Id} {b b' row : BulkLine} {next state : BulkState} {w : BulkPass} {n : Nat}
  {α : Type} {now : Time} {as : List α} {l : α → Id}

theorem Elsewhere.of_rely (h : bulkDiscipline.rely s t) (x : Id) : Elsewhere s t x :=
  ⟨fun y _ => h.1.line y, h.1.logs, h.2⟩

theorem Elsewhere.refl (s : Bulk) (x : Id) : Elsewhere s s x := .of_rely (bulkDiscipline.rely_refl s) x

theorem Elsewhere.trans (h : Elsewhere s t x) (h' : Elsewhere t u x) : Elsewhere s u x :=
  ⟨fun y hy => (h.line y hy).trans (h'.line y hy), h.logs.trans h'.logs, h.kept.trans h'.kept⟩

theorem Elsewhere.rely (h : Elsewhere s t x) (h' : bulkDiscipline.rely t u) :
    Elsewhere s u x := h.trans (.of_rely h' x)

theorem Replaced.elsewhere (h : Replaced s t x b b') (hk : BulkKept s t) :
    Elsewhere s t x := ⟨fun _ hy => h.around hy, h.logs, hk⟩

theorem silent_skipped (h : b.silent = true) : b.state = .skipped := by
  rw [BulkLine.silent, and_eq_true, and_eq_true, beq_iff_eq] at h
  exact h.1.1

theorem LineSound.sent (h : LineSound s b) (hb : b.state.final = false) {x : BulkState}
    (hx : b.notifiedState = some x) : (b.id, x) ∈ s.announced := by
  refine (h.announced x hx).resolve_right fun hsilent => ?_
  rw [silent_skipped hsilent] at hb
  cases hb

structure Change (s : Bulk) (b b' : BulkLine) : Prop where
  sound : LineSound s b'
  final : b.state.final = true → b'.state = b.state
  waits : b.state.awaits = true → b.ownerActionId.isSome = true →
    b'.state.final = true ∨ b'.state = b.state ∧ b'.ownerActionId = b.ownerActionId

theorem commit_line {p q : BulkLine → Bool} {f : BulkLine → BulkLine}
    {Q : Except (Failure Unit) Unit → Bulk → Prop} {k : List Nat → BulkProg Unit} (hid : ∀ b, (f b).id = b.id)
    (hp : ∀ b, p b = (b.id == x && q b)) (habort : ∀ a t, bulkDiscipline.rely s t → Q (.error (.aborted a)) t)
    (hmiss : ∀ t, bulkDiscipline.rely s t → (∀ b, t.lines.get? x = some b → q b = false) →
      Safe bulkDiscipline Q (k [0]) t)
    (hhit : ∀ t b, bulkDiscipline.rely s t → BulkSound t → t.lines.get? x = some b → q b = true →
      Change t b (f b) ∧ ∀ u, Replaced t u x b (f b) → BulkKept t u → BulkSound u → Safe bulkDiscipline Q (k [1]) u) :
    Safe bulkDiscipline Q (commit .line [update Bulk.linesT (fun _ b => p b) fun _ b => f b] >>= k) s := by
  refine Safe.commit fun t hr hi => ⟨fun a => habort a t hr, fun ns u hb => ?_⟩
  obtain ⟨n, hstmt, rfl⟩ := batch_single_ok hb
  simp only [hp] at hstmt
  obtain ⟨rfl, rfl, hnone⟩ | ⟨rfl, b, lines, hget, hq, rfl, hlines⟩ := lineUpdate_cases hid hstmt
  · exact ⟨hi, BulkKept.refl _, hmiss _ hr hnone⟩
  · obtain ⟨hchange, hrest⟩ := hhit t b hr hi hget hq
    have hrep : Replaced t { t with lines := lines } x b (f b) := ⟨hget, hlines, rfl, rfl, rfl, rfl⟩
    have hkept := hrep.kept hchange.final hchange.waits
    have hsound := hrep.sound hi hchange.sound
    exact ⟨hsound, hkept, hrest _ hrep hkept hsound⟩

/-! ## Lines that are given up -/

def OwnerAnswered (s t : Bulk) (x : Id) : Prop := (∃ state, Final t x state) ∨ s.approvalsOf x < t.approvalsOf x

theorem OwnerAnswered.later (h : OwnerAnswered s t x) (hk : BulkKept t u) : OwnerAnswered s u x := by
  obtain ⟨state, hfin⟩ | hlt := h
  · exact Or.inl ⟨state, (hk.final x state hfin).1⟩
  · exact Or.inr (Nat.lt_of_lt_of_le hlt (hk.approvals x))

/-- The line that waits for an answer is still as it was read in `u`. -/
structure Held (u s : Bulk) (b : BulkLine) : Prop where
  since : BulkKept u s
  held : b.state.awaits = true → b.ownerActionId.isSome = true → s.lines.get? b.id = some b ∨ OwnerAnswered u s b.id

theorem Held.later (h : Held u s b) (hline : LineAround s t b.id) (hk : BulkKept s t) : Held u t b := by
  refine ⟨h.since.trans hk, fun hawaits howner => ?_⟩
  rcases h.held hawaits howner with hget | hanswered
  · obtain ⟨r, hr⟩ := isSome_iff_exists.mp howner
    rcases hk.waits b.id r ⟨b, hget, hawaits, hr⟩ with ⟨c, hc, hcawaits, -⟩ | hfin | hlt
    · obtain ⟨b', hb', rfl | ⟨-, hpending, -⟩⟩ := hline.moved b hget
      · exact Or.inl hb'
      · obtain rfl := some.inj (hc.symm.trans hb')
        rw [hpending] at hcawaits
        cases hcawaits
    · exact Or.inr (Or.inl hfin)
    · exact Or.inr (Or.inr (Nat.lt_of_le_of_lt (h.since.approvals _) hlt))
  · exact Or.inr (hanswered.later hk)

theorem giveUp_safe (hheld : Held u s b) (hb : b.state.final = false) (hnext : next.final = true) :
    Safe bulkDiscipline (fun r t => (r = .ok () → b.state.awaits = true → b.ownerActionId.isSome = true →
      w.release b.id = true → OwnerAnswered u t b.id) ∧ Elsewhere s t b.id) (giveUp w b next) s := by
  rw [giveUp]
  split
  · rename_i hno
    refine ⟨fun _ _ _ hyes => ?_, .refl s _⟩
    rw [hyes] at hno
    cases hno
  refine Safe.effect fun s₁ hr hi => ?_
  have hlogs : LogsKept s₁ { s₁ with released := s₁.released ++ [b.id] } := ⟨fun _ hx => hx, fun _ _ hx => hx⟩
  have hkept : BulkKept s₁ { s₁ with released := s₁.released ++ [b.id] } :=
    .same rfl rfl (fun _ => Nat.le_refl _) fun _ hx => hx
  have hrely : bulkDiscipline.rely s { s₁ with released := s₁.released ++ [b.id] } :=
    bulkDiscipline.rely_trans _ _ _ hr ⟨⟨LineAround.same rfl, hlogs⟩, hkept⟩
  refine ⟨hlogs.sound rfl rfl hi, hkept, commit_line (q := fun x => x.state == b.state) (fun _ => rfl) (fun _ => rfl)
    (fun a t ht => ⟨nofun, ?_⟩) (fun t ht hmiss => ⟨fun _ hawaits howner _ => ?_, ?_⟩)
    (fun t c ht hs hc hq => ⟨⟨⟨fun _ => Or.inl hnext, fun x hx => ?_, (hs.line _ c hc).accepted⟩,
      fun hfin => ?_, fun _ _ => Or.inl hnext⟩, fun v hrep hk _ => ⟨fun _ _ _ _ => ?_, ?_⟩⟩)⟩
  · exact (Elsewhere.of_rely hrely _).rely ht
  · have hall := bulkDiscipline.rely_trans _ _ _ hrely ht
    refine ((hheld.later (hall.1.line _) hall.2).held hawaits howner).resolve_left fun hget => ?_
    simpa using hmiss b hget
  · exact (Elsewhere.of_rely hrely _).rely ht
  · exact Or.inl ((hs.line _ c hc).sent (by rw [beq_iff_eq.mp hq]; exact hb) hx)
  · rw [beq_iff_eq.mp hq, hb] at hfin
    cases hfin
  · exact Or.inl ⟨next, _, hrep.after, rfl, hnext⟩
  · exact ((Elsewhere.of_rely hrely _).rely ht).trans (hrep.elsewhere hk)

/-! ## Messages -/

def Free (s : Bulk) (x : Id) (state : BulkState) : Prop :=
  ∀ b, s.lines.get? x = some b → b.state = state → state.awaits = true → b.ownerActionId = none

theorem Free.later (h : Free s x state) (hline : LineAround s t x) : Free t x state := by
  intro b hb hstate hawaits
  cases hs : s.lines.get? x with
  | none => exact (hline.fresh hs b hb).2
  | some c =>
    obtain ⟨b', hb', hmoved⟩ := hline.moved c hs
    obtain rfl := some.inj (hb'.symm.trans hb)
    obtain rfl | ⟨-, -, hnone⟩ := hmoved
    · exact h b' hs hstate hawaits
    · exact hnone

section

variable (hs : BulkSound s)
include hs

theorem free_of_unsent (hb : s.lines.get? b.id = some b) (hunsent : b.unsent = true) : Free s b.id b.state := by
  intro c hc _ hawaits
  obtain rfl := some.inj (hb.symm.trans hc)
  cases howner : b.ownerActionId with
  | none => rfl
  | some a =>
    rcases (hs.line _ b hb).offered (by rw [howner]; rfl) with hfin | ⟨-, hnotified⟩
    · rw [awaits_not_final hawaits] at hfin
      cases hfin
    · rw [BulkLine.unsent, hnotified] at hunsent
      simp at hunsent

theorem quiet (hlines : t.lines = s.lines) (hpurchases : t.purchases = s.purchases)
    (happ : t.approvals = s.approvals) (hlogs : LogsKept s t)
    (hrej : ∀ r, s.rejected r = true → t.rejected r = true) :
    BulkSound t ∧ BulkKept s t ∧ bulkDiscipline.rely s t := by
  have hkept : BulkKept s t := .same hlines hpurchases (fun x => by rw [Bulk.approvalsOf, Bulk.approvalsOf, happ]) hrej
  exact ⟨hlogs.sound hlines hpurchases hs, hkept, ⟨LineAround.same hlines, hlogs⟩, hkept⟩

theorem message_quiet (x : Id) (state : BulkState) :
    BulkSound { s with announced := s.announced ++ [(x, state)] } ∧
      BulkKept s { s with announced := s.announced ++ [(x, state)] } ∧
      bulkDiscipline.rely s { s with announced := s.announced ++ [(x, state)] } :=
  quiet hs rfl rfl rfl ⟨fun _ hx => mem_append_left _ hx, fun _ _ hx => hx⟩ fun _ hr => hr

theorem offer_quiet {offer : BulkOffer} (h : insert Bulk.offersT .abort (fun _ => [offer]) 0 s = .ok (n, t)) :
    BulkSound t ∧ BulkKept s t ∧ bulkDiscipline.rely s t := by
  obtain ⟨-, offers, hrows, rfl⟩ := insert_abort_ok h
  have hmem : ∀ o ∈ s.offers.rows, o ∈ offers.rows := fun o ho => by
    rw [hrows]
    exact mem_append_left _ ho
  refine quiet hs rfl rfl rfl (.offers rfl rfl fun o ho hshown => ⟨o, hmem o ho, hshown, rfl, rfl, rfl⟩) fun r hr => ?_
  obtain ⟨o, ho, hrej⟩ := exist_iff.mp hr
  exact exist_iff.mpr ⟨o, hmem o ho, hrej⟩

theorem shown_quiet {id : Id}
    (h : update Bulk.offersT (fun _ o => o.id == id) (fun _ o => { o with shown := true }) 0 s = .ok (n, t)) :
    BulkSound t ∧ BulkKept s t ∧ bulkDiscipline.rely s t := by
  obtain ⟨-, offers, hrows, rfl⟩ := update_ok h
  have hmem : ∀ o ∈ s.offers.rows, ∃ o' ∈ offers.rows, o'.id = o.id ∧ o'.lineId = o.lineId ∧
      o'.acceptUnitMinor = o.acceptUnitMinor ∧ o'.status = o.status ∧ (o.shown = true → o'.shown = true) := by
    intro o ho
    refine ⟨_, by rw [hrows]; exact mem_map_of_mem ho, ?_⟩
    split
    · exact ⟨rfl, rfl, rfl, rfl, fun _ => rfl⟩
    · exact ⟨rfl, rfl, rfl, rfl, fun hshown => hshown⟩
  refine quiet hs rfl rfl rfl (.offers rfl rfl fun o ho hshown => ?_) fun r hr => ?_
  · obtain ⟨o', ho', hid, hline, hprice, -, hkeep⟩ := hmem o ho
    exact ⟨o', ho', hkeep hshown, hid, hline, hprice⟩
  · obtain ⟨o, ho, hrej⟩ := exist_iff.mp hr
    obtain ⟨o', ho', hid, -, -, hstatus, -⟩ := hmem o ho
    exact exist_iff.mpr ⟨o', ho', by rw [hid, hstatus]; exact hrej⟩

end

/-- What a delivery comes to: the message is out, and only a state that waits comes with an offer. -/
def OwnerTold (x : Id) (state : BulkState) (s : Bulk) (r : Except (Failure Unit) (Option (Option Id))) (t : Bulk) :
    Prop :=
  bulkDiscipline.rely s t ∧ ∀ a, r = .ok (some a) → (x, state) ∈ t.announced ∧ (a.isSome = true → state.awaits = true)

theorem proposeBulkAction_safe (x : Id) (result : BulkResult) (actionId : Id) (sent : Bool)
    (hawaits : state.awaits = true) :
    Safe bulkDiscipline (OwnerTold x state s) (proposeBulkAction x state result actionId sent) s := by
  unfold proposeBulkAction
  refine Safe.commit fun t hr hi => ⟨fun _ => ⟨hr, nofun⟩, fun ns u hb => ?_⟩
  obtain ⟨n, hstmt, rfl⟩ := batch_single_ok hb
  obtain ⟨hsound, hkept, hrely⟩ := offer_quiet hi hstmt
  have hr := bulkDiscipline.rely_trans _ _ _ hr hrely
  refine ⟨hsound, hkept, ?_⟩
  cases sent with
  | false => exact ⟨hr, nofun⟩
  | true =>
    refine Safe.effect fun v hv hi => ?_
    obtain ⟨hsound, hkept, hrely⟩ := message_quiet hi x state
    have hr := bulkDiscipline.rely_trans _ _ _ (bulkDiscipline.rely_trans _ _ _ hr hv) hrely
    refine ⟨hsound, hkept, Safe.commit fun a ha hi => ?_⟩
    have hr := bulkDiscipline.rely_trans _ _ _ hr ha
    refine ⟨fun _ => ⟨hr, nofun⟩, fun ns b hb => ?_⟩
    obtain ⟨n, hstmt, rfl⟩ := batch_single_ok hb
    obtain ⟨hsound, hkept, hrely⟩ := shown_quiet hi hstmt
    refine ⟨hsound, hkept, bulkDiscipline.rely_trans _ _ _ hr hrely, fun c _ => ⟨?_, fun _ => hawaits⟩⟩
    exact hrely.1.logs.announced (ha.1.logs.announced (mem_append_right _ (mem_singleton.mpr rfl)))

theorem deliver_safe (x : Id) (state : BulkState) (result : BulkResult) (d : Delivery) :
    Safe bulkDiscipline (OwnerTold x state s) (deliver x state result d) s := by
  unfold deliver
  split
  · rename_i actionId haction
    refine Safe.tryCatch (proposeBulkAction_safe x result actionId d.sent ?_) (fun _ _ h => h) (fun _ h => ⟨h.1, nofun⟩)
      fun _ _ h => ⟨h.1, nofun⟩
    exact (filter_eq_some_iff.mp haction).2
  · split
    · refine Safe.effect fun t hr hi => ?_
      obtain ⟨hsound, hkept, hrely⟩ := message_quiet hi x state
      refine ⟨hsound, hkept, bulkDiscipline.rely_trans _ _ _ hr hrely, fun a ha => ⟨?_, fun hsome => ?_⟩⟩
      · exact mem_append_right _ (mem_singleton.mpr rfl)
      · obtain rfl := some.inj (Except.ok.inj ha)
        cases hsome
    · exact ⟨bulkDiscipline.rely_refl s, nofun⟩

theorem notify_safe (hfree : Free s x state) (h₀ : Elsewhere s₀ s x) (result : BulkResult) (d : Delivery) :
    Safe bulkDiscipline (fun _ t => Elsewhere s₀ t x) (notify x state result d) s := by
  unfold notify
  refine Safe.bind (deliver_safe x state result d) (fun delivered t hd => ?_) fun _ t hd => h₀.rely hd.1
  cases delivered with
  | none => exact h₀.rely hd.1
  | some actionId =>
    obtain ⟨hout, hoffer⟩ := hd.2 actionId rfl
    have hfree := hfree.later (hd.1.1.line x)
    refine commit_line (q := fun b => b.state == state) (fun _ => rfl) (fun _ => rfl)
      (fun _ u hu => (h₀.rely hd.1).rely hu) (fun u hu _ => (h₀.rely hd.1).rely hu) fun u b hu hs hb hq => ?_
    have hstate : b.state = state := beq_iff_eq.mp hq
    have hsound := hs.line x b hb
    have hid : b.id = x := get?_key hb
    refine ⟨⟨⟨fun hsome => ?_, fun y hy => ?_, hsound.accepted⟩, fun _ => rfl, fun hawaits hold => ?_⟩,
      fun v hrep hk _ => ((h₀.rely hd.1).rely hu).trans (hrep.elsewhere hk)⟩
    · cases hact : actionId with
      | none =>
        rw [hact] at hsome
        exact (hsound.offered hsome).imp_right fun h => ⟨h.1, by rw [hstate]⟩
      | some a =>
        refine Or.inr ⟨?_, by rw [hstate]⟩
        rw [hstate]
        exact hoffer (by rw [hact]; rfl)
    · obtain rfl := some.inj hy
      left
      rw [hid]
      exact hu.1.logs.announced hout
    · rw [hfree.later (hu.1.line x) b hb hstate (by rw [← hstate]; exact hawaits)] at hold
      cases hold

/-! ## Purchase requests -/

structure Running (state : BulkState) : Prop where
  goes : state.final = false
  asks : state.awaits = false

theorem Running.unowned (hs : LineSound s b) (hb : Running b.state) : b.ownerActionId = none := by
  cases howner : b.ownerActionId with
  | none => rfl
  | some a =>
    rcases hs.offered (by rw [howner]; rfl) with hfin | ⟨hawaits, -⟩
    · rw [hb.goes] at hfin
      cases hfin
    · rw [hb.asks] at hawaits
      cases hawaits

theorem Running.change (hs : LineSound s b) (hb : Running b.state) (hid : b'.id = b.id)
    (howner : b'.ownerActionId = b.ownerActionId) (hnotified : b'.notifiedState = b.notifiedState)
    (haccept : b'.acceptUnitMinor = b.acceptUnitMinor) : Change s b b' := by
  refine ⟨⟨fun hsome => ?_, fun x hx => ?_, fun p hp => ?_⟩, fun hfin => ?_, fun hawaits _ => ?_⟩
  · rw [howner, hb.unowned hs] at hsome
    cases hsome
  · rw [hnotified] at hx
    rw [hid]
    exact Or.inl (hs.sent hb.goes hx)
  · rw [haccept] at hp
    rw [hid]
    exact hs.accepted p hp
  · rw [hb.goes] at hfin
    cases hfin
  · rw [hb.asks] at hawaits
    cases hawaits

theorem LineAround.settled {c : BulkLine} (h : LineAround s t x) (hb : s.lines.get? x = some b)
    (hfin : b.state.final = true) (hc : t.lines.get? x = some c) : c = b := by
  obtain ⟨b', hb', hmoved⟩ := h.moved b hb
  obtain rfl := some.inj (hb'.symm.trans hc)
  obtain rfl | ⟨hawaits, -⟩ := hmoved
  · rfl
  · rw [awaits_not_final hawaits] at hfin
    cases hfin

theorem settle_safe {result : BulkResult} {nextAt : Time} (hrow : Running row.state)
    (hskip : result.status = "not_bulk" → state = .skipped) (h₀ : Elsewhere s₀ s row.id) :
    Safe bulkDiscipline (fun _ t => Elsewhere s₀ t row.id) (settle w row state result nextAt) s := by
  unfold settle settleLine
  refine commit_line (q := fun b => b.state == row.state) (fun _ => rfl) (fun _ => rfl) (fun _ t ht => h₀.rely ht)
    (fun t ht _ => ?_) fun t b ht hs hb hq => ?_
  · rw [if_pos (Or.inl (by decide))]
    exact h₀.rely ht
  have hrun : Running b.state := by
    rw [beq_iff_eq.mp hq]
    exact hrow
  have hsound := hs.line _ b hb
  refine ⟨hrun.change hsound rfl rfl rfl rfl, fun u hrep hk _ => ?_⟩
  have h₁ := (h₀.rely ht).trans (hrep.elsewhere hk)
  split
  · exact h₁
  split
  · rename_i hstatus
    have hskipped := hskip hstatus
    refine commit_line (q := fun _ => true) (fun _ => rfl) (fun b => (Bool.and_true _).symm) (fun _ v hv => h₁.rely hv)
      (fun v hv _ => h₁.rely hv) fun v c hv hvs hc _ => ?_
    obtain rfl := (hv.1.line _).settled hrep.after (by rw [hskipped]; rfl) hc
    refine ⟨⟨⟨fun _ => Or.inl (by rw [hskipped]; rfl), fun y _ => Or.inr ?_, (hvs.line _ _ hc).accepted⟩,
      fun _ => rfl, fun _ _ => Or.inr ⟨rfl, rfl⟩⟩, fun a hrep' hk' _ => (h₁.rely hv).trans (hrep'.elsewhere hk')⟩
    simp [BulkLine.silent, hskipped, hstatus]
  · refine notify_safe (fun c hc _ _ => ?_) h₁ _ _
    obtain rfl := some.inj (hrep.after.symm.trans hc)
    exact (hrun.unowned hsound :)

/-- The line may be asked for: it goes on, and the price that it carries was approved. -/
structure LineReady (s : Bulk) (row : BulkLine) : Prop where
  running : Running row.state
  goes : ∀ b, s.lines.get? row.id = some b → b.state.final = false
  accepted : ∀ p, row.acceptUnitMinor = some p → Approved s row.id p

theorem LineReady.later (h : LineReady s row) (hline : LineAround s t row.id) (hlogs : LogsKept s t) :
    LineReady t row := by
  refine ⟨h.running, fun b hb => ?_, fun p hp => hlogs.approved _ _ (h.accepted p hp)⟩
  cases hs : s.lines.get? row.id with
  | none =>
    rw [(hline.fresh hs b hb).1]
    rfl
  | some c =>
    obtain ⟨b', hb', hmoved⟩ := hline.moved c hs
    obtain rfl := some.inj (hb'.symm.trans hb)
    obtain rfl | ⟨-, hpending, -⟩ := hmoved
    · exact h.goes _ hs
    · rw [hpending]
      rfl

theorem purchase_kept (hs : BulkSound s) (h : LineReady s row) :
    BulkSound { s with purchases := s.purchases ++ [⟨row.id, row.acceptUnitMinor⟩] } ∧
      BulkKept s { s with purchases := s.purchases ++ [⟨row.id, row.acceptUnitMinor⟩] } ∧
      Elsewhere s { s with purchases := s.purchases ++ [⟨row.id, row.acceptUnitMinor⟩] } row.id := by
  have hlogs : LogsKept s { s with purchases := s.purchases ++ [⟨row.id, row.acceptUnitMinor⟩] } :=
    ⟨fun _ hx => hx, fun _ _ hx => hx⟩
  have hkept : BulkKept s { s with purchases := s.purchases ++ [⟨row.id, row.acceptUnitMinor⟩] } := by
    refine ⟨fun x state hx => ⟨hx, ?_⟩, fun _ _ hx => Or.inl hx, fun _ => Nat.le_refl _, fun _ hr => hr⟩
    obtain ⟨b, hb, hstate, hfin⟩ := hx
    have hne : row.id ≠ x := by
      rintro rfl
      rw [← hstate, h.goes b hb] at hfin
      cases hfin
    simp [Bulk.purchasesOf, hne]
  refine ⟨⟨fun x b hb => (hs.line x b hb).later hlogs, fun q hq p hp => ?_⟩, hkept,
    ⟨fun y _ => LineAround.same (by rfl) y, hlogs, hkept⟩⟩
  rcases mem_append.mp hq with hq | hq
  · exact hs.purchased q hq p hp
  · obtain rfl := mem_singleton.mp hq
    exact h.accepted p hp

theorem nextState_not_bulk {status : String} {delay : Nat} (h : nextState status = some (state, delay))
    (hstatus : status = "not_bulk") : state = .skipped := by
  subst hstatus
  cases h
  rfl

theorem advance_safe (hready : LineReady s row) (orderStatus : ShopOrderStatus) :
    Safe bulkDiscipline (fun _ t => Elsewhere s t row.id) (advance w row orderStatus) s := by
  unfold advance
  split
  · exact .refl s _
  refine Safe.effect fun t ht hi => ?_
  obtain ⟨hsound, hkept, helse⟩ := purchase_kept hi (hready.later (ht.1.line _) ht.1.logs)
  have h₁ := (Elsewhere.of_rely ht row.id).trans helse
  refine ⟨hsound, hkept, ?_⟩
  dsimp only
  generalize (w.purchase row.id).getD ⟨"warehouse_unreachable", none, none⟩ = result
  split
  · rename_i hnext
    exact settle_safe hready.running (nextState_not_bulk hnext) h₁
  rename_i hnext
  split
  · refine settle_safe hready.running (fun hstatus => ?_) h₁
    have hstatus : result.status = "not_bulk" := hstatus
    rw [hstatus] at hnext
    cases hnext
  · unfold retryLater
    refine commit_line (q := fun b => b.state == row.state) (fun _ => rfl) (fun _ => rfl) (fun _ u hu => h₁.rely hu)
      (fun u hu _ => h₁.rely hu) fun u b hu hs hb hq => ?_
    have hrun : Running b.state := by
      rw [beq_iff_eq.mp hq]
      exact hready.running
    exact ⟨hrun.change (hs.line _ b hb) rfl rfl rfl rfl, fun v hrep hk _ => (h₁.rely hu).trans (hrep.elsewhere hk)⟩

/-! ## A pass -/

theorem forEach_safe {f : α → BulkProg Unit} {P R : α → Bulk → Prop} (hf : ∀ a s, P a s →
      Safe bulkDiscipline (fun r t => (r = .ok () → R a t) ∧ Elsewhere s t (l a)) (f a) s)
    (hP : ∀ a s t x, P a s → l a ≠ x → Elsewhere s t x → P a t) (hR : ∀ a s t, R a s → BulkKept s t → R a t)
    (hkeys : as.Pairwise fun a b => l a ≠ l b) (has : ∀ a ∈ as, P a s) :
    Safe bulkDiscipline (fun r t => (r = .ok () → ∀ a ∈ as, R a t) ∧ BulkKept s t) (forEach f as) s := by
  induction as generalizing s with
  | nil => exact ⟨fun _ a ha => absurd ha not_mem_nil, BulkKept.refl s⟩
  | cons a rest ih =>
    obtain ⟨hfirst, hrest⟩ := pairwise_cons.mp hkeys
    refine Safe.bind (hf a s (has a mem_cons_self)) (fun _ t ht => ?_) fun _ t ht => ⟨nofun, ht.2.kept⟩
    have hnext : ∀ b ∈ rest, P b t := fun b hb =>
      hP b s t _ (has b (mem_cons_of_mem _ hb)) (Ne.symm (hfirst b hb)) ht.2
    refine (ih hrest hnext).mono fun r u hu => ⟨fun hr b hb => ?_, ht.2.kept.trans hu.2⟩
    rcases mem_cons.mp hb with rfl | hb
    · exact hR b t u (ht.1 rfl) hu.2
    · exact hu.1 hr b hb

theorem rows_apart (s : Bulk) : s.lines.rows.Pairwise fun a b => a.id ≠ b.id := s.lines.keys_pairwise

theorem mem_giveUps {g : BulkLine × BulkState} : g ∈ s.giveUps ↔ g.1 ∈ s.lines.rows ∧ s.givesUp g.1 = some g.2 := by
  rw [Bulk.giveUps, mem_filterMap]
  constructor
  · rintro ⟨b, hb, hg⟩
    obtain ⟨next, hnext, rfl⟩ := map_eq_some_iff.mp hg
    exact ⟨hb, hnext⟩
  · rintro ⟨hb, hnext⟩
    exact ⟨g.1, hb, by rw [hnext]; rfl⟩

theorem giveUps_apart (s : Bulk) : s.giveUps.Pairwise fun a b => a.1.id ≠ b.1.id := by
  refine List.Pairwise.filterMap _ (fun a b hab c hc d hd => ?_) (rows_apart s)
  obtain ⟨_, -, rfl⟩ := map_eq_some_iff.mp hc
  obtain ⟨_, -, rfl⟩ := map_eq_some_iff.mp hd
  exact hab

theorem givesUp_goes (h : s.givesUp b = some next) : b.state.final = false ∧ next.final = true := by
  unfold Bulk.givesUp at h
  split at h
  · cases h
  split at h
  · rename_i hcond
    rw [or_eq_true, and_eq_true, and_eq_true] at hcond
    have hnext := some.inj h
    refine ⟨?_, ?_⟩
    · rcases hcond with ⟨hawaits, -⟩ | ⟨hgoes, -⟩
      · exact awaits_not_final hawaits
      · exact not_eq_true' _ ▸ hgoes
    · rw [← hnext]
      split <;> rfl
  · cases h

theorem selected (hle : α → α → Prop) [DecidableRel hle] (has : as.Pairwise fun a b => l a ≠ l b) (n : Nat) :
    ((insertionSort hle as).take n).Pairwise (fun a b => l a ≠ l b) ∧
      ∀ a ∈ (insertionSort hle as).take n, a ∈ as := by
  have hperm := perm_insertionSort hle as
  refine ⟨List.Pairwise.sublist (take_sublist _ _) ?_, fun a ha => hperm.subset ((take_sublist _ _).subset ha)⟩
  exact (hperm.pairwise_iff fun h => Ne.symm h).mpr has

theorem unsentLines_apart (s : Bulk) : s.unsentLines.Pairwise (fun a b => a.id ≠ b.id) ∧
    ∀ b ∈ s.unsentLines, s.lines.get? b.id = some b ∧ b.unsent = true := by
  obtain ⟨hapart, hmem⟩ := selected (l := BulkLine.id) (fun a b : BulkLine => a.updatedAt ≤ b.updatedAt)
    ((rows_apart s).filter fun b => b.unsent && (s.statusOf b).isSome) 5
  refine ⟨hapart, fun b hb => ?_⟩
  obtain ⟨hrow, hsel⟩ := mem_filter.mp (hmem b hb)
  exact ⟨mem_get? hrow, (and_eq_true_iff.mp hsel).1⟩

theorem dueLines_apart (s : Bulk) (now : Time) : (s.dueLines now).Pairwise (fun a b => a.1.id ≠ b.1.id) ∧
    ∀ d ∈ s.dueLines now, s.lines.get? d.1.id = some d.1 ∧ d.1.dueAt now = true := by
  obtain ⟨hapart, hmem⟩ := selected (l := BulkLine.id) BulkLine.before
    ((rows_apart s).filter fun b => b.dueAt now && (s.statusOf b).isSome) 5
  refine ⟨List.Pairwise.filterMap _ (fun a b hab c hc d hd => ?_) hapart, fun d hd => ?_⟩
  · obtain ⟨_, -, rfl⟩ := map_eq_some_iff.mp hc
    obtain ⟨_, -, rfl⟩ := map_eq_some_iff.mp hd
    exact hab
  · obtain ⟨b, hb, hd⟩ := mem_filterMap.mp hd
    obtain ⟨_, -, rfl⟩ := map_eq_some_iff.mp hd
    obtain ⟨hrow, hsel⟩ := mem_filter.mp (hmem b hb)
    exact ⟨mem_get? hrow, (and_eq_true_iff.mp hsel).1⟩

theorem dueAt_running (h : b.dueAt now = true) : Running b.state := by
  rw [BulkLine.dueAt, and_eq_true] at h
  cases hstate : b.state <;> first | exact ⟨rfl, rfl⟩ | (rw [hstate] at h; exact absurd h.1 (by decide))

theorem ready_of_due (hs : BulkSound s) (hb : s.lines.get? b.id = some b) (hdue : b.dueAt now = true) :
    LineReady s b := by
  refine ⟨dueAt_running hdue, fun c hc => ?_, (hs.line _ b hb).accepted⟩
  obtain rfl := some.inj (hb.symm.trans hc)
  exact (dueAt_running hdue).goes

/-- The lines that the pass gives up are answered, when the warehouse accepts their release. -/
def LineReached (w : BulkPass) (u t : Bulk) (b : BulkLine) : Prop :=
  b.state.awaits = true → b.ownerActionId.isSome = true → w.release b.id = true → OwnerAnswered u t b.id

theorem unsent_safe (hs : BulkSound s) (w : BulkPass) : Safe bulkDiscipline (fun _ t => BulkKept s t)
      (forEach (fun b => notify b.id b.state (b.lastResult.getD ⟨"", none, none⟩) (w.resend b.id)) s.unsentLines) s := by
  obtain ⟨hapart, hmem⟩ := unsentLines_apart s
  refine (forEach_safe (l := BulkLine.id) (P := fun b s => Free s b.id b.state) (R := fun _ _ => True)
    (fun b s hb => (notify_safe hb (.refl s _) _ _).mono fun _ _ h => ⟨fun _ => trivial, h⟩)
    (fun b s t x hb hne helse => hb.later (helse.line _ hne)) (fun _ _ _ h _ => h) hapart fun b hb => ?_).mono
    fun _ _ h => h.2
  exact free_of_unsent hs (hmem b hb).1 (hmem b hb).2

theorem due_safe (hs : BulkSound s) (w : BulkPass) :
    Safe bulkDiscipline (fun _ t => BulkKept s t) (forEach (fun d => advance w d.1 d.2) (s.dueLines w.now)) s := by
  obtain ⟨hapart, hmem⟩ := dueLines_apart s w.now
  refine (forEach_safe (l := fun d : BulkLine × ShopOrderStatus => d.1.id) (P := fun d s => LineReady s d.1)
    (R := fun _ _ => True) (fun d s hd => (advance_safe hd d.2).mono fun _ _ h => ⟨fun _ => trivial, h⟩)
    (fun d s t x hd hne helse => hd.later (helse.line _ hne) helse.logs) (fun _ _ _ h _ => h) hapart
    fun d hd => ?_).mono fun _ _ h => h.2
  exact ready_of_due hs (hmem d hd).1 (hmem d hd).2

theorem pass_safe (w : BulkPass) (u : Bulk) :
    Safe bulkDiscipline (fun r t => r = .ok () → w.releaseToken = true → ∀ g ∈ u.giveUps.take 10, LineReached w u t g.1)
      (Turn.act ⟨u, runBulkProcurements w⟩).call u := by
  change Safe bulkDiscipline _
    ((if w.releaseToken then forEach (fun g => giveUp w g.1 g.2) (u.giveUps.take 10) else .done ()) >>= _) u
  have hgive : Safe bulkDiscipline (fun r t => (r = .ok () → w.releaseToken = true →
      ∀ g ∈ u.giveUps.take 10, LineReached w u t g.1) ∧ BulkKept u t)
      (if w.releaseToken then forEach (fun g => giveUp w g.1 g.2) (u.giveUps.take 10) else .done ()) u := by
    split
    · refine (forEach_safe (l := fun g : BulkLine × BulkState => g.1.id)
        (P := fun g s => Held u s g.1 ∧ g.1.state.final = false ∧ g.2.final = true)
        (R := fun g t => LineReached w u t g.1) (fun g s hg => ?_) (fun g s t x hg hne helse => ?_)
        (fun g s t hg hk hawaits howner hrelease => (hg hawaits howner hrelease).later hk)
        ((giveUps_apart u).sublist (take_sublist _ _)) fun g hg => ?_).mono fun r t ht => ⟨fun hr _ => ht.1 hr, ht.2⟩
      · exact giveUp_safe hg.1 hg.2.1 hg.2.2
      · exact ⟨hg.1.later (helse.line _ hne) helse.kept, hg.2⟩
      · obtain ⟨hrow, hgives⟩ := mem_giveUps.mp ((take_sublist _ _).subset hg)
        exact ⟨⟨BulkKept.refl u, fun _ _ => Or.inl (mem_get? hrow)⟩, givesUp_goes hgives⟩
    · rename_i hno
      exact ⟨fun _ hyes => absurd hyes hno, BulkKept.refl u⟩
  refine Safe.bind hgive (fun _ s hs => ?_) fun _ _ _ => nofun
  refine Safe.query fun t hr ht => ?_
  refine Safe.bind (unsent_safe ht w) (fun _ s' hs' => ?_) fun _ _ _ => nofun
  refine Safe.query fun t' hr' ht' => ?_
  have hkept : BulkKept s t' := hr.2.trans (hs'.trans hr'.2)
  split
  · refine (due_safe ht' w).mono fun r v hv _ htoken g hg hawaits howner hrelease => ?_
    exact (hs.1 rfl htoken g hg hawaits howner hrelease).later (hkept.trans hv)
  · exact fun _ htoken g hg hawaits howner hrelease => (hs.1 rfl htoken g hg hawaits howner hrelease).later hkept

theorem runBulkProcurements_safe (w : BulkPass) : Safe bulkDiscipline (fun _ _ => True) (runBulkProcurements w) s :=
  fun t _ ht => ⟨ht, BulkKept.refl t, (pass_safe w t).mono fun _ _ _ => trivial⟩

/-! ## Runs -/

def Selected (s : Bulk) (x : Id) : Prop := ∃ g ∈ s.giveUps, g.1.id = x

theorem WaitsFor.selected {r : Id} (h : WaitsFor s x r) (hr : s.rejected r = true)
    (horder : ∀ b, s.lines.get? x = some b → (s.statusOf b).isSome = true) : Selected s x := by
  obtain ⟨b, hb, hawaits, howner⟩ := h
  obtain ⟨status, hstatus⟩ := isSome_iff_exists.mp (horder b hb)
  refine ⟨(b, if withdrawn status then .cancelled else .skipped), mem_giveUps.mpr ⟨get?_mem hb, ?_⟩,
    get?_key hb⟩
  have hrejects : s.rejects b = true := by
    rw [Bulk.rejects, howner]
    exact hr
  simp [Bulk.givesUp, hstatus, hawaits, hrejects]

theorem BulkRuns.sound {w w' : Turn Bulk BulkSite Unit Unit} (hs : BulkSound w.db)
    (hsafe : Safe bulkDiscipline (fun _ _ => True) w.call w.db) (h : BulkRuns w w') :
    BulkSound w'.db ∧ BulkKept w.db w'.db ∧ Safe bulkDiscipline (fun _ _ => True) w'.call w'.db := by
  refine SerialRuns.sound (D := bulkDiscipline) (fun s t h hs => ?_) (fun c s _ => runBulkProcurements_safe c) hs hsafe h
  obtain ⟨hsound, haround, hkept⟩ := event_sound h hs
  exact ⟨hsound, ⟨haround, hkept⟩, hkept⟩

/-- From `w` on: final states stay and nothing more is bought for their lines; prices are approved ones; a line that
waits for the answer to a rejected offer stays selected until it is answered, and a pass that reaches it answers it;
every other state than the first two is announced, selected for announcement, or the skip of a line that is no bulk
line. -/
theorem bulk_follows_owner {s : Bulk} (hlines : s.lines = .empty) (hpurchases : s.purchases = [])
    {w w' : Turn Bulk BulkSite Unit Unit} (h : BulkRuns ⟨s, .done ()⟩ w) (h' : BulkRuns w w') :
    (∀ x state, Final w.db x state → Final w'.db x state ∧ w'.db.purchasesOf x = w.db.purchasesOf x) ∧
    (∀ q ∈ w.db.purchases, ∀ p, q.acceptUnitFen = some p → Approved w.db q.lineId p) ∧
    (∀ x r, WaitsFor w.db x r → w.db.rejected r = true → OwnerAnswered w.db w'.db x ∨ WaitsFor w'.db x r ∧
      ((∀ b, w'.db.lines.get? x = some b → (w'.db.statusOf b).isSome = true) → Selected w'.db x)) ∧
    (∀ pass t, CallRuns BulkEvent (Turn.act ⟨w.db, runBulkProcurements pass⟩) ⟨t, .done ()⟩ →
      pass.releaseToken = true → ∀ g ∈ w.db.giveUps.take 10, LineReached pass w.db t g.1) ∧
    ∀ x b, w.db.lines.get? x = some b → b.state ≠ .pending → b.state ≠ .verifying →
      (b.id, b.state) ∈ w.db.announced ∨ b.unsent = true ∨ b.silent = true := by
  have hstart : BulkSound s := by
    refine ⟨fun x b hb => ?_, fun q hq => ?_⟩
    · rw [hlines] at hb
      cases hb
    · rw [hpurchases] at hq
      exact absurd hq not_mem_nil
  obtain ⟨hsound, -, hsafe⟩ := BulkRuns.sound (w := ⟨s, .done ()⟩) hstart trivial h
  obtain ⟨-, hkept, -⟩ := BulkRuns.sound hsound hsafe h'
  refine ⟨hkept.final, hsound.purchased, fun x r hwaits hr => ?_, fun pass t ht htoken g hg => ?_,
    fun x b hb hpending hverifying => ?_⟩
  · rcases hkept.waits x r hwaits with hw | hfin | hlt
    · exact Or.inr ⟨hw, hw.selected (hkept.rejected r hr)⟩
    · exact Or.inl (Or.inl hfin)
    · exact Or.inl (Or.inr hlt)
  · have hpass := CallRuns.sound (D := bulkDiscipline) (w := Turn.act ⟨w.db, runBulkProcurements pass⟩)
      (fun s t h hs => ?_) (fun r u v hQ hrely => ?_) hsound (pass_safe pass w.db) ht
    · exact hpass.2 rfl htoken g hg
    · obtain ⟨hsound, haround, hkept⟩ := event_sound h hs
      exact ⟨hsound, ⟨haround, hkept⟩, hkept⟩
    · exact fun hr htoken g hg hawaits howner hrelease =>
        (hQ hr htoken g hg hawaits howner hrelease).later hrely.2
  · by_cases hnotified : b.notifiedState = some b.state
    · rcases (hsound.line x b hb).announced _ hnotified with hout | hsilent
      · exact Or.inl hout
      · exact Or.inr (Or.inr hsilent)
    · exact Or.inr (Or.inl (by simp [BulkLine.unsent, hpending, hverifying, hnotified]))

def bulkStart : Bulk where
  lines := .empty
  orders := .of [⟨1, .paid⟩]
  offers := .empty
  purchases := []
  released := []
  announced := []
  approvals := []

def answeredPass (status : String) (d : Delivery) : BulkPass where
  now := 1000
  release _ := true
  purchase _ := some { status := status, unitFen := some 90 }
  resend _ := d
  send _ := d

def bulkSold : Bulk :=
  { bulkStart with
    lines := .of [{ id := 1, orderId := 1, orderItemId := 1, warehouseSku := "sku", quantity := 3,
                    createdAt := 0, updatedAt := 0 }] }

theorem bulkSold_recorded : recordBulkSale 1 1 1 "sku" 3 0 0 bulkStart = .ok (1, bulkSold) := rfl

theorem bulk_pass_reached (w : BulkPass) :
    ∃ q, BulkRuns ⟨bulkStart, .done ()⟩ ⟨((runBulkProcurements w).alone bulkSold).2, q⟩ := by
  obtain ⟨q, -, hruns⟩ := SerialRuns.alone (runBulkProcurements w) bulkSold
  exact ⟨q, .head (.event _ bulkSold (.sale (by decide) bulkSold_recorded)) (.head (.start _ w rfl) hruns)⟩

/-- The price changed: the owner is asked. -/
theorem bulk_follows_owner_asked : ∃ q, let p := answeredPass "price_changed" { actionId := some 7 }
    let s := ((runBulkProcurements p).alone bulkSold).2
    BulkRuns ⟨bulkStart, .done ()⟩ ⟨s, q⟩ ∧ (s.lines.get? 1).map (·.ownerActionId) = some (some 7) ∧
      (1, .awaitingPrice) ∈ s.announced := by
  obtain ⟨q, hruns⟩ := bulk_pass_reached (answeredPass "price_changed" { actionId := some 7 })
  refine ⟨q, hruns, by decide, ?_⟩
  have hfollows := (bulk_follows_owner rfl rfl hruns .refl).2.2.2.2 1
    { id := 1, orderId := 1, orderItemId := 1, warehouseSku := "sku", quantity := 3, state := .awaitingPrice,
      notifiedState := some .awaitingPrice, ownerActionId := some 7,
      lastResult := some { status := "price_changed", unitFen := some 90 }, createdAt := 0, updatedAt := 1000 }
    (by
      show ((runBulkProcurements (answeredPass "price_changed" { actionId := some 7 })).alone bulkSold).2.lines.get? 1 = _
      decide) (by decide) (by decide)
  rcases hfollows with hout | hunsent | hsilent
  · exact hout
  · cases hunsent
  · cases hsilent

/-- The line is no bulk line: it is skipped, and neither was anything announced nor will it be. -/
theorem bulk_silent_skip : ∃ q, let s := ((runBulkProcurements (answeredPass "not_bulk" {})).alone bulkSold).2
    BulkRuns ⟨bulkStart, .done ()⟩ ⟨s, q⟩ ∧ (s.lines.get? 1).map (·.state) = some .skipped ∧
      s.announced = [] ∧ s.unsentLines = [] := by
  obtain ⟨q, hruns⟩ := bulk_pass_reached (answeredPass "not_bulk" {})
  exact ⟨q, hruns, by decide, by decide, by decide⟩

end Gmshop
