import GmshopEdge.Telegram.OwnerActions
import GmshopEdge.Lib.Guarantee

/-!
# An approval runs once

Each claim on a row comes after the earlier ones were given back or have outlived the lease
(`ActionClaim.After`), so that the handlers of two runs overlap only when the later run took the row over.
A run whose claim is still the newest finds the row in `processing`, and what it records is what it did.

The claim has no token: a run that was taken over can start its handler late, record its result or reopen
the row while another run has it. `claimHeld` is the condition that it does none of these.
-/

namespace Gmshop

open List Sql Stmt Prog Table Bool World

/-! ## The property -/

def ActionRequest.holder (r : ActionRequest) : Option Nat := r.claims.head?.map (·.run)

def clockMonotone (x : OwnerActionSite) (s : OwnerActions) : Prop :=
  match x with
  | .claim id _ now => ∀ r ∈ s.requests.get? id, ∀ c ∈ r.claims, c.time ≤ now
  | _ => True

instance (x : OwnerActionSite) (s : OwnerActions) : Decidable (clockMonotone x s) := by
  cases x <;> unfold clockMonotone <;> infer_instance

/-- The run starts its handler, records or reopens with the newest claim on the row. -/
def stillHolds (x : OwnerActionSite) (s : OwnerActions) : Prop :=
  match x with
  | .startHandler id run => ∀ r ∈ s.requests.get? id, r.holder = some run
  | .reopen id run => ∀ r ∈ s.requests.get? id, r.status = .processing → r.holder = some run
  | .record id run => ∀ r ∈ s.requests.get? id, r.status = .processing → r.holder = some run
  | _ => True

instance (x : OwnerActionSite) (s : OwnerActions) : Decidable (stillHolds x s) := by
  cases x <;> unfold stillHolds <;> infer_instance

/-- Claims in the order of the clock, and nothing more from a run that was taken over. -/
def claimHeld (x : OwnerActionSite) (s : OwnerActions) : Prop := clockMonotone x s ∧ stillHolds x s

instance (x : OwnerActionSite) (s : OwnerActions) : Decidable (claimHeld x s) :=
  inferInstanceAs (Decidable (_ ∧ _))

/-- The handlers of two runs are at work on one row only if one run claimed it more than the lease after
the other. -/
def Spaced (s : OwnerActions) : Prop :=
  ∀ e ∈ s.running, ∀ e' ∈ s.running, e.requestId = e'.requestId → e.run ≠ e'.run →
    e.claimedAt + processingLeaseMs < e'.claimedAt ∨ e'.claimedAt + processingLeaseMs < e.claimedAt

instance (s : OwnerActions) : Decidable (Spaced s) :=
  inferInstanceAs (Decidable (∀ e ∈ s.running, ∀ e' ∈ s.running, _))

def ActionRequest.Recorded (ran : List RunOutcome) (r : ActionRequest) : Prop :=
  r.status ∈ [.approved, .rejected, .failed] →
    ∃ o ∈ ran, o.requestId = r.id ∧ o.status = r.status ∧ r.result = some o.line

/-! ## The invariant -/

def ActionClaim.After (later earlier : ActionClaim) : Prop :=
  earlier.released = true ∨ earlier.time + processingLeaseMs < later.time

structure ActionRequest.Sound (s : OwnerActions) (r : ActionRequest) : Prop where
  spaced : r.claims.Pairwise ActionClaim.After
  names : ∀ c ∈ r.claims, c.run < s.runs
  pending : r.status = .pending → ∀ c ∈ r.claims.head?, c.released = true
  processing : r.status = .processing → ∃ c ∈ r.claims.head?, r.decidedAt = some c.time
  recorded : r.Recorded s.ran
  running : ∀ e ∈ s.running, e.requestId = r.id → ⟨e.run, e.claimedAt, false⟩ ∈ r.claims

structure ActionsSound (s : OwnerActions) : Prop where
  row : ∀ r ∈ s.requests.rows, r.Sound s
  found : ∀ e ∈ s.running, ∃ r, s.requests.get? e.requestId = some r

variable {id : Id} {r r' : ActionRequest} {s t : OwnerActions} {own : Set Nat}
  {p : OwnerActions → ActionRequest → Bool} {c n run : Nat} {f : OwnerActions → ActionRequest → ActionRequest}
  {input : ClaimInput} {line : ResultLine} {status : ActionStatus} {α : Type}

theorem ActionsSound.sound (h : ActionsSound s) (hr : s.requests.get? id = some r) : r.Sound s :=
  h.row r (get?_mem hr)

theorem ActionsSound.run_lt (h : ActionsSound s) {e : HandlerRun} (he : e ∈ s.running) : e.run < s.runs := by
  obtain ⟨r, hr⟩ := h.found e he
  exact (h.sound hr).names _ ((h.sound hr).running e he (get?_key hr).symm)

theorem ActionsSound.spaced (h : ActionsSound s) : Spaced s := by
  intro e he e' he' hid hne
  obtain ⟨r, hr⟩ := h.found e he
  have hrow := h.sound hr
  have hkey : r.id = e.requestId := get?_key hr
  have hclaim := hrow.running e he hkey.symm
  have hclaim' := hrow.running e' he' (hid.symm.trans hkey.symm)
  have hsymm : Std.Symm fun a b : ActionClaim => ActionClaim.After a b ∨ ActionClaim.After b a :=
    ⟨fun _ _ h => h.symm⟩
  have hpair := (hrow.spaced.imp Or.inl : r.claims.Pairwise
    fun a b => ActionClaim.After a b ∨ ActionClaim.After b a).forall hclaim hclaim'
      fun heq => hne (congrArg ActionClaim.run heq)
  rcases hpair with (hgiven | hlate) | hgiven | hlate
  · cases hgiven
  · exact Or.inr hlate
  · cases hgiven
  · exact Or.inl hlate

/-! ## What a waiting run relies on -/

/-- The claims of the runs `own` stay, the newest claim on a row is one of theirs only if it was, and a
row that is settled stays so. -/
structure RowRely (own : Set Nat) (r r' : ActionRequest) : Prop where
  claims : ∀ c : ActionClaim, c.run ∈ own → (c ∈ r'.claims ↔ c ∈ r.claims)
  held : ∀ run ∈ own, r'.holder = some run →
    r.holder = some run ∧ (r.status = .processing → r'.status = .processing)
  settled : r.status.settled = true → r'.status = r.status

theorem RowRely.refl (own : Set Nat) (r : ActionRequest) : RowRely own r r :=
  ⟨fun _ _ => Iff.rfl, fun _ _ h => ⟨h, id⟩, fun _ => rfl⟩

theorem RowRely.trans {r'' : ActionRequest} (h : RowRely own r r') (h' : RowRely own r' r'') : RowRely own r r'' where
  claims c hc := (h'.claims c hc).trans (h.claims c hc)
  held run hrun hheld := by
    obtain ⟨hheld', hstatus'⟩ := h'.held run hrun hheld
    obtain ⟨hheld'', hstatus''⟩ := h.held run hrun hheld'
    exact ⟨hheld'', fun hp => hstatus' (hstatus'' hp)⟩
  settled hs := by
    rw [h'.settled (by rw [h.settled hs]; exact hs), h.settled hs]

structure ActionsRely (own : Set Nat) (s t : OwnerActions) : Prop where
  runs : s.runs ≤ t.runs
  row : ∀ id r, s.requests.get? id = some r → ∃ r', t.requests.get? id = some r' ∧ RowRely own r r'
  running : ∀ e : HandlerRun, e.run ∈ own → (e ∈ t.running ↔ e ∈ s.running)
  ran : s.ran ⊆ t.ran
  finished : ∀ id r, s.requests.get? id = some r → r.status.settled = true →
    ∀ e ∈ t.running, e.requestId = id → e ∈ s.running

theorem ActionsRely.trans {u : OwnerActions} (h : ActionsRely own s t) (h' : ActionsRely own t u) :
    ActionsRely own s u where
  runs := Nat.le_trans h.runs h'.runs
  row id r hr := by
    obtain ⟨r', hr', hrely⟩ := h.row id r hr
    obtain ⟨r'', hr'', hrely'⟩ := h'.row id r' hr'
    exact ⟨r'', hr'', hrely.trans hrely'⟩
  running e he := (h'.running e he).trans (h.running e he)
  ran o ho := h'.ran (h.ran ho)
  finished id r hr hs e he hid := by
    obtain ⟨r', hr', hrely⟩ := h.row id r hr
    refine h.finished id r hr hs e (h'.finished id r' hr' ?_ e he hid) hid
    rw [hrely.settled hs]
    exact hs

theorem ActionsRely.of_rows (hruns : s.runs ≤ t.runs) (hrows : t.requests = s.requests)
    (hrunning : ∀ e : HandlerRun, e.run ∈ own → (e ∈ t.running ↔ e ∈ s.running)) (hran : s.ran ⊆ t.ran)
    (hfinished : ∀ id r, s.requests.get? id = some r → r.status.settled = true →
      ∀ e ∈ t.running, e.requestId = id → e ∈ s.running) : ActionsRely own s t :=
  ⟨hruns, fun _ r hr => ⟨r, by rw [hrows]; exact hr, .refl own r⟩, hrunning, hran, hfinished⟩

def actionSpec : Spec OwnerActions OwnerActionSite Nat where
  inv := ActionsSound
  cond := claimHeld
  guar _ _ := True
  rely := ActionsRely
  issued s := { run | run < s.runs }
  guar_refl _ := trivial
  rely_refl _ _ := .of_rows (Nat.le_refl _) rfl (fun _ _ => Iff.rfl) (List.Subset.refl _) fun _ _ _ _ _ h _ => h
  rely_trans _ _ _ _ := ActionsRely.trans
  issued_mono _ _ h _ hrun := Nat.lt_of_lt_of_le hrun h.runs

/-! ## Updates of the requests -/

/-- A row rewritten by a call that owns `own`. -/
structure RowStep (own : Set Nat) (s : OwnerActions) (r r' : ActionRequest) : Prop where
  id : r'.id = r.id
  sound : r'.Sound s
  rely : ∀ others, Disjoint others own → RowRely others r r'

theorem RowStep.same (hr : r.Sound s) (hid : r'.id = r.id) (hstatus : r'.status = r.status)
    (hclaims : r'.claims = r.claims) (hdecided : r'.decidedAt = r.decidedAt) (hresult : r'.result = r.result) :
    RowStep own s r r' where
  id := hid
  sound := by
    refine ⟨?_, ?_, ?_, ?_, ?_, ?_⟩
    · rw [hclaims]
      exact hr.spaced
    · rw [hclaims]
      exact hr.names
    · rw [hclaims, hstatus]
      exact hr.pending
    · rw [hclaims, hstatus, hdecided]
      exact hr.processing
    · unfold ActionRequest.Recorded
      rw [hstatus, hid, hresult]
      exact hr.recorded
    · rw [hid, hclaims]
      exact hr.running
  rely others _ := by
    refine ⟨fun c _ => by rw [hclaims], fun run _ hheld => ?_, fun _ => hstatus⟩
    unfold ActionRequest.holder at hheld ⊢
    rw [hclaims] at hheld
    exact ⟨hheld, fun h => hstatus.trans h⟩

theorem update_admits (hs : ActionsSound s) (hf : ∀ r ∈ s.requests.rows, p s r = true → RowStep own s r (f s r))
    (h : update OwnerActions.requestsT p f c s = .ok (n, t)) :
    actionSpec.Admits own own s t ∧ (n ≠ 0 → ∃ r ∈ s.requests.rows, p s r = true) ∧
      t.running = s.running ∧ t.ran = s.ran ∧
      ∀ id, t.requests.get? id = (s.requests.get? id).map fun r => if p s r then f s r else r := by
  obtain ⟨hn, requests, hrows, rfl⟩ := update_ok h
  have hstep : ∀ r ∈ s.requests.rows, RowStep own s r (if p s r then f s r else r) := by
    intro r hr
    split
    · next hp => exact hf r hr hp
    · exact .same (hs.row r hr) rfl rfl rfl rfl rfl
  have hget : ∀ id, requests.get? id = (s.requests.get? id).map fun r => if p s r then f s r else r := by
    intro id
    cases hr : s.requests.get? id with
    | none =>
      rw [Option.map_none, Option.eq_none_iff_forall_not_mem]
      intro x hx
      obtain ⟨hmem, hkey⟩ := get?_eq_some_iff.mp hx
      rw [hrows, mem_map] at hmem
      obtain ⟨y, hy, rfl⟩ := hmem
      have hyid : y.id = id := (hstep y hy).id.symm.trans hkey
      have hfound : s.requests.get? y.id = some y := mem_get? hy
      rw [hyid, hr] at hfound
      cases hfound
    | some r =>
      rw [Option.map_some, get?_eq_some_iff, hrows]
      refine ⟨mem_map_of_mem (get?_mem hr), ?_⟩
      exact (hstep r (get?_mem hr)).id.trans (get?_key hr)
  refine ⟨⟨⟨?_, ?_⟩, trivial, fun others _ hdisj => ⟨Nat.le_refl _, ?_, fun _ _ => Iff.rfl, (List.Subset.refl _), ?_⟩,
    Set.subset_union_left⟩, fun hne => ?_, rfl, rfl, hget⟩
  · intro r' hr'
    change r' ∈ requests.rows at hr'
    rw [hrows, mem_map] at hr'
    obtain ⟨r, hr, rfl⟩ := hr'
    obtain ⟨hspaced, hnames, hpending, hprocessing, hrecorded, hrunning⟩ := (hstep r hr).sound
    exact ⟨hspaced, hnames, hpending, hprocessing, hrecorded, hrunning⟩
  · intro e he
    obtain ⟨r, hr⟩ := hs.found e he
    exact ⟨_, (hget _).trans (by rw [hr]; rfl)⟩
  · intro id r hr
    refine ⟨_, (hget id).trans (by rw [hr]; rfl), ?_⟩
    exact (hstep r (get?_mem hr)).rely others hdisj
  · exact fun _ _ _ _ e he _ => he
  · exact countP_pos_iff.mp (Nat.pos_of_ne_zero fun hzero => hne (hn.trans hzero))

/-! ## The run of a claimed row -/

/-- The run has claimed the row, and the row is in `processing` while its claim is the newest. -/
def ClaimedRequest (id : Id) (run : Nat) (now : Time) (s : OwnerActions) : Prop :=
  ∃ r, s.requests.get? id = some r ∧ ⟨run, now, false⟩ ∈ r.claims ∧ (r.holder = some run → r.status = .processing)

theorem ClaimedRequest.rely {now : Time} (h : ClaimedRequest id run now s) (hr : ActionsRely { run } s t) :
    ClaimedRequest id run now t := by
  obtain ⟨r, hget, hclaim, hheld⟩ := h
  obtain ⟨r', hget', hrow⟩ := hr.row id r hget
  refine ⟨r', hget', (hrow.claims ⟨run, now, false⟩ rfl).mpr hclaim, fun hholder => ?_⟩
  obtain ⟨hholder', hstatus⟩ := hrow.held run rfl hholder
  exact hstatus (hheld hholder')

def Resting (run : Nat) (s : OwnerActions) : Prop := ∀ e ∈ s.running, e.run ≠ run

theorem Resting.rely (h : Resting run s) (hr : ActionsRely { run } s t) : Resting run t := by
  rintro e he rfl
  exact h e ((hr.running e rfl).mp he) rfl

/-- The claim comes after the earlier ones: a pending row was given back, and the newest claim on one in
`processing` has outlived the lease. -/
theorem claimed_after (hr : r.Sound s) (hp : claimableRequest input r = true)
    (hclock : ∀ c ∈ r.claims, c.time ≤ input.now) :
    ∀ c ∈ r.claims, ActionClaim.After ⟨run, input.now, false⟩ c := by
  simp only [claimableRequest, and_eq_true, or_eq_true, beq_iff_eq] at hp
  have hspaced := hr.spaced
  cases hclaims : r.claims with
  | nil => exact fun c hc => nomatch hc
  | cons newest earlier =>
    have hhead : newest ∈ r.claims.head? := by simp [hclaims]
    rw [hclaims, pairwise_cons] at hspaced
    rintro c (_ | ⟨_, hc⟩)
    · rcases hp.2 with hpending | ⟨hprocessing, hlease⟩
      · exact Or.inl (hr.pending hpending newest hhead)
      · obtain ⟨c, hc, hdecided⟩ := hr.processing hprocessing
        obtain rfl : newest = c := Option.mem_unique hhead hc
        rw [hdecided, Option.any_some, decide_eq_true_eq] at hlease
        exact Or.inr hlease
    · refine (hspaced.1 c hc).imp_right fun hlate => Nat.lt_of_lt_of_le hlate (hclock newest ?_)
      rw [hclaims]
      exact mem_cons_self

theorem claimed_step (hr : r.Sound s) (hrun : run < s.runs) (hp : claimableRequest input r = true)
    (hclock : ∀ c ∈ r.claims, c.time ≤ input.now) : RowStep { run } s r (r.claimed input run) where
  id := rfl
  sound := by
    refine ⟨pairwise_cons.mpr ⟨claimed_after hr hp hclock, hr.spaced⟩, ?_, ?_, ?_, ?_, ?_⟩
    · rintro c (_ | ⟨_, hc⟩)
      · exact hrun
      · exact hr.names c hc
    · exact fun h => nomatch h
    · exact fun _ => ⟨_, rfl, rfl⟩
    · intro h
      simp [ActionRequest.claimed] at h
    · exact fun e he hid => mem_cons_of_mem _ (hr.running e he hid)
  rely others hdisj := by
    refine ⟨fun c hc => ?_, fun run' hrun' hheld => ?_, fun hsettled => ?_⟩
    · refine ⟨fun hmem => ?_, mem_cons_of_mem _⟩
      rcases mem_cons.mp hmem with rfl | hmem
      · exact absurd rfl (Set.disjoint_left.mp hdisj hc)
      · exact hmem
    · obtain rfl : run = run' := Option.some.inj hheld
      exact absurd rfl (Set.disjoint_left.mp hdisj hrun')
    · simp only [claimableRequest, and_eq_true, or_eq_true, beq_iff_eq] at hp
      rcases hp.2 with hstatus | ⟨hstatus, -⟩ <;> rw [hstatus] at hsettled <;> cases hsettled

theorem recorded_step (hr : r.Sound s) (hstatus : r.status = .processing) (hheld : r.holder = some run)
    (hsettles : status.settled = true)
    (hran : ∃ o ∈ s.ran, o.requestId = r.id ∧ o.status = status ∧ o.line = line) :
    RowStep { run } s r { r with status := status, result := some line } where
  id := rfl
  sound := by
    refine ⟨hr.spaced, hr.names, ?_, ?_, ?_, hr.running⟩
    · rintro rfl
      cases hsettles
    · rintro rfl
      cases hsettles
    · obtain ⟨o, ho, hid, hsame, hline⟩ := hran
      exact fun _ => ⟨o, ho, hid, hsame, congrArg some hline.symm⟩
  rely others hdisj := by
    refine ⟨fun _ _ => Iff.rfl, fun run' hrun' hheld' => ?_, fun hsettled => ?_⟩
    · obtain rfl : run = run' := Option.some.inj (hheld.symm.trans hheld')
      exact absurd rfl (Set.disjoint_left.mp hdisj hrun')
    · rw [hstatus] at hsettled
      cases hsettled

theorem releasedBy_run {c : ActionClaim} (h : c.run ≠ run) : c.releasedBy run = c := by
  have hne : (c.run == run) = false := beq_eq_false_iff_ne.mpr h
  rw [ActionClaim.releasedBy, hne, Bool.or_false]

theorem reopened_step (hr : r.Sound s) (hstatus : r.status = .processing) (hheld : r.holder = some run)
    (hrest : Resting run s) : RowStep { run } s r (r.reopened run line) where
  id := rfl
  sound := by
    have hclaims : (r.reopened run line).claims = r.claims.map (·.releasedBy run) := rfl
    refine ⟨?_, ?_, ?_, (fun h => nomatch h), ?_, ?_⟩
    · rw [hclaims, pairwise_map]
      refine hr.spaced.imp fun h => ?_
      rcases h with hgiven | hlate
      · exact Or.inl (by rw [ActionClaim.releasedBy, hgiven, Bool.true_or])
      · exact Or.inr hlate
    · rw [hclaims]
      intro c hc
      obtain ⟨c, hc', rfl⟩ := mem_map.mp hc
      exact hr.names c hc'
    · rw [hclaims, head?_map]
      rintro - c hc
      obtain ⟨c, hc', rfl⟩ := Option.mem_map.mp hc
      unfold ActionRequest.holder at hheld
      rw [hc'] at hheld
      obtain rfl : c.run = run := Option.some.inj hheld
      simp [ActionClaim.releasedBy]
    · intro h
      simp [ActionRequest.reopened] at h
    · intro e he hid
      rw [hclaims, mem_map]
      exact ⟨_, hr.running e he hid, releasedBy_run (hrest e he)⟩
  rely others hdisj := by
    have hother : ∀ {c : ActionClaim}, c.run ∈ others → c.run ≠ run := by
      rintro c hc rfl
      exact Set.disjoint_left.mp hdisj hc rfl
    refine ⟨fun c hc => ?_, fun run' hrun' hheld' => ?_, fun hsettled => ?_⟩
    · show c ∈ r.claims.map (·.releasedBy run) ↔ c ∈ r.claims
      rw [mem_map]
      constructor
      · rintro ⟨x, hx, rfl⟩
        rw [releasedBy_run (c := x) (hother hc)]
        exact hx
      · exact fun hmem => ⟨c, hmem, releasedBy_run (hother hc)⟩
    · have hsame : (r.reopened run line).holder = r.holder := by
        unfold ActionRequest.holder ActionRequest.reopened
        rw [head?_map, Option.map_map]
        rfl
      rw [hsame, hheld] at hheld'
      obtain rfl : run = run' := Option.some.inj hheld'
      exact absurd rfl (Set.disjoint_left.mp hdisj hrun')
    · rw [hstatus] at hsettled
      cases hsettled

/-! ## The calls -/

theorem quiet_update {x : OwnerActionSite}
    (hf : ∀ t, ActionsSound t → ∀ r ∈ t.requests.rows, p t r = true → RowStep ∅ t r (f t r)) :
    Bare actionSpec (commit x [update OwnerActions.requestsT p f] : OwnerActionProg (List Nat)) s := by
  refine Bare.commit fun t _ ht _ ns u hb => ?_
  obtain ⟨n, hu, -⟩ := batch_single_ok hb
  exact (update_admits ht (hf t ht) hu).1

theorem endHandler_admits {o : RunOutcome} (hs : ActionsSound s) (ho : o.run = run) :
    actionSpec.Admits { run } { run } s (s.endHandler o) := by
  have hsub : ∀ e ∈ (s.endHandler o).running, e ∈ s.running := fun e he => mem_of_mem_filter he
  refine ⟨⟨fun r hr => ?_, fun e he => hs.found e (hsub e he)⟩, trivial, fun others _ hdisj => ?_,
    Set.subset_union_left⟩
  · obtain ⟨hspaced, hnames, hpending, hprocessing, hrecorded, hrunning⟩ := hs.row r hr
    refine ⟨hspaced, hnames, hpending, hprocessing, fun hstatus => ?_, fun e he => hrunning e (hsub e he)⟩
    obtain ⟨o', ho', h⟩ := hrecorded hstatus
    exact ⟨o', mem_cons_of_mem _ ho', h⟩
  · refine .of_rows (Nat.le_refl _) rfl (fun e he => ?_) (subset_cons_self _ _) fun _ _ _ _ e he _ => hsub e he
    refine ⟨hsub e, fun hmem => mem_filter.mpr ⟨hmem, bne_iff_ne.mpr ?_⟩⟩
    rintro heq
    rw [heq, ho] at he
    exact absurd rfl (Set.disjoint_left.mp hdisj he)

theorem startHandler_admits (hs : ActionsSound s)
    (hrow : ∃ r, s.requests.get? input.id = some r ∧ ⟨run, input.now, false⟩ ∈ r.claims ∧
      r.status = .processing) : actionSpec.Admits { run } { run } s (s.startHandler input run) := by
  obtain ⟨r, hr, hclaim, hstatus⟩ := hrow
  refine ⟨⟨fun x hx => ?_, fun e he => ?_⟩, trivial, fun others _ hdisj => ?_, Set.subset_union_left⟩
  · obtain ⟨hspaced, hnames, hpending, hprocessing, hrecorded, hrunning⟩ := hs.row x hx
    refine ⟨hspaced, hnames, hpending, hprocessing, hrecorded, fun e he hid => ?_⟩
    rcases mem_cons.mp he with rfl | he
    · have hfound : s.requests.get? x.id = some x := mem_get? hx
      rw [← hid, hr] at hfound
      rw [← Option.some.inj hfound]
      exact hclaim
    · exact hrunning e he hid
  · rcases mem_cons.mp he with rfl | he
    · exact ⟨r, hr⟩
    · exact hs.found e he
  · refine .of_rows (Nat.le_refl _) rfl (fun e he => ?_) (List.Subset.refl _) fun id x hx hsettled e he hid => ?_
    · refine ⟨fun hmem => ?_, mem_cons_of_mem _⟩
      rcases mem_cons.mp hmem with rfl | hmem
      · exact absurd rfl (Set.disjoint_left.mp hdisj he)
      · exact hmem
    · rcases mem_cons.mp he with rfl | he
      · obtain rfl : r = x := Option.some.inj (hr.symm.trans (by rw [← hx, ← hid]))
        rw [hstatus] at hsettled
        cases hsettled
      · exact he

theorem nextRun_ok {k : Nat → OwnerActionProg α}
    (h : ∀ run t, ActionsSound t → Resting run t → Ok actionSpec anyEnd (k run) { run } t) :
    Ok actionSpec anyEnd (nextRun >>= k) ∅ s := by
  intro t _ ht _ _
  have hsound : ActionsSound { t with runs := t.runs + 1 } := by
    refine ⟨fun r hr => ?_, ht.found⟩
    obtain ⟨hspaced, hnames, hpending, hprocessing, hrecorded, hrunning⟩ := ht.row r hr
    exact ⟨hspaced, fun c hc => Nat.lt_succ_of_lt (hnames c hc), hpending, hprocessing, hrecorded, hrunning⟩
  refine ⟨{ t.runs }, ⟨hsound, trivial, fun others _ _ => ?_, ?_⟩, h _ _ hsound fun e he => ?_⟩
  · exact .of_rows (Nat.le_succ _) rfl (fun _ _ => Iff.rfl) (List.Subset.refl _) fun _ _ _ _ e he _ => he
  · rintro run rfl
    exact Or.inr ⟨Nat.lt_succ_self _, Nat.lt_irrefl _⟩
  · exact Nat.ne_of_lt (ht.run_lt he)

theorem callHandler_ok (kind : OwnerActionKind) (h : ClaimedRequest input.id run input.now s) :
    Ok actionSpec (fun _ own t => own = { run } ∧ ClaimedRequest input.id run input.now t)
      (callHandler input run kind) { run } s := by
  unfold callHandler
  split
  · intro t hr ht _ hc
    obtain ⟨r, hget, hclaim, hheld⟩ := h.rely hr
    have hstatus := hheld ((hc _ rfl).2 r hget)
    exact ⟨{ run }, startHandler_admits ht ⟨r, hget, hclaim, hstatus⟩, rfl, r, hget, hclaim, hheld⟩
  · exact ⟨rfl, h⟩

theorem runResult_settled (kind : OwnerActionKind) (choice : Option Nat) (answer : HandlerAnswer)
    (now : Time) : (runResult kind choice answer now).1.settled = true := by
  unfold runResult
  cases choice with
  | none => rfl
  | some n => cases kind <;> cases answer <;> rfl

theorem settleRun_ok {kind : OwnerActionKind} (hsettles : status.settled = true) (hrest : Resting run s)
    (hran : ⟨id, run, status, line⟩ ∈ s.ran) :
    Ok actionSpec anyEnd (settleRun id run kind status line) { run } s := by
  have hkey : ∀ {t : OwnerActions} {r : ActionRequest}, r ∈ t.requests.rows →
      (r.id == id && r.status == .processing) = true →
        t.requests.get? id = some r ∧ r.id = id ∧ r.status = .processing := by
    intro t r hmem hp
    rw [and_eq_true, beq_iff_eq, beq_iff_eq] at hp
    exact ⟨get?_eq_some_iff.mpr ⟨hmem, hp.1⟩, hp⟩
  unfold settleRun
  split
  · refine Ok.commit fun t hr ht _ hc => ⟨fun _ => trivial, fun ns u hb => ?_⟩
    obtain ⟨n, hu, -⟩ := batch_single_ok hb
    refine ⟨{ run }, (update_admits ht (fun r hmem hp => ?_) hu).1, trivial⟩
    obtain ⟨hget, -, hstatus⟩ := hkey hmem hp
    exact reopened_step (ht.row r hmem) hstatus (hc.2 r hget hstatus) (hrest.rely hr)
  · refine Ok.commit fun t hr ht _ hc => ⟨fun _ => trivial, fun ns u hb => ?_⟩
    obtain ⟨n, hu, -⟩ := batch_single_ok hb
    refine ⟨{ run }, (update_admits ht (fun r hmem hp => ?_) hu).1, trivial⟩
    obtain ⟨hget, hid, hstatus⟩ := hkey hmem hp
    exact recorded_step (ht.row r hmem) hstatus (hc.2 r hget hstatus) hsettles ⟨_, hr.ran hran, hid.symm, rfl, rfl⟩

theorem claimAndRun_ok (input : ClaimInput) (answer : HandlerAnswer) (s : OwnerActions) :
    Ok actionSpec anyEnd (claimAndRun input answer) ∅ s := by
  refine nextRun_ok fun run s _ hrest => Ok.commit fun t hr ht hown hc => ⟨fun _ => trivial, fun ns u hb => ?_⟩
  obtain ⟨n, hu, rfl⟩ := batch_single_ok hb
  have hrun : run < t.runs := hown rfl
  have hstep : ∀ r ∈ t.requests.rows, (r.id == input.id && claimableRequest input r) = true →
      RowStep { run } t r (r.claimed input run) := by
    intro r hmem hp
    rw [and_eq_true, beq_iff_eq] at hp
    refine claimed_step (ht.row r hmem) hrun hp.2 (hc.1 r ?_)
    rw [← hp.1]
    exact mem_get? hmem
  obtain ⟨hadm, hhit, -, -, hget⟩ := update_admits ht hstep hu
  -- a claim that counted one row leaves it in processing, under this run
  have hclaimed : n = 1 → ClaimedRequest input.id run input.now u := by
    intro hn
    obtain ⟨r, hmem, hp⟩ := hhit (by omega)
    have hfound : t.requests.get? input.id = some r := by
      have hid := (and_eq_true _ _ ▸ hp).1
      rw [← beq_iff_eq.mp hid]
      exact mem_get? hmem
    refine ⟨r.claimed input run, ?_, mem_cons_self, fun _ => rfl⟩
    rw [hget, hfound, Option.map_some, if_pos hp]
  refine ⟨{ run }, hadm, Ok.query fun v hr hv => ?_⟩
  cases v.requests.get? input.id with
  | none => trivial
  | some row =>
    dsimp only
    split
    · trivial
    next hcount =>
    have hclaimed := (hclaimed (by simpa using hcount)).rely hr
    refine Ok.bind (Ok.mono ?_ (callHandler_ok row.kind hclaimed))
    rintro outcome own w ⟨rfl, hclaimed⟩
    cases outcome with
    | error e => trivial
    | ok _ =>
      refine Ok.effect fun x hr hx _ _ => ⟨{ run }, endHandler_admits hx rfl, ?_⟩
      refine Ok.bind (Ok.mono ?_ (settleRun_ok (runResult_settled _ _ _ _) (fun e he => ?_) mem_cons_self))
      · intro ended _ _ _
        cases ended <;> trivial
      · exact bne_iff_ne.mp (mem_filter.mp he).2

theorem ok_answer {β : Type} {p : OwnerActionProg α} (f : α → β) (h : Ok actionSpec anyEnd p own s) :
    Ok actionSpec anyEnd (p >>= fun a => .done (f a)) own s := by
  refine Ok.bind (Ok.mono (fun r _ _ _ => ?_) h)
  cases r <;> trivial

theorem callback_ok (press : ButtonPress) (answer : HandlerAnswer) (s : OwnerActions) :
    Ok actionSpec anyEnd (handleOwnerActionCallback press answer) ∅ s := by
  unfold handleOwnerActionCallback
  split
  · trivial
  split
  · trivial
  refine Ok.query fun t _ _ => ?_
  split
  · split
    · trivial
    refine ok_answer _ (Bare.ok (quiet_update fun u hu r hr _ => ?_))
    exact .same (hu.row r hr) rfl rfl rfl rfl rfl
  · exact ok_answer _ (claimAndRun_ok _ _ t)

theorem reply_ok (message : ReplyMessage) (answer : HandlerAnswer) (s : OwnerActions) :
    Ok actionSpec anyEnd (handleOwnerActionReply message answer) ∅ s := by
  unfold handleOwnerActionReply
  split
  · trivial
  split
  · trivial
  refine Ok.query fun t _ _ => ?_
  split
  · trivial
  split
  · split
    · trivial
    split
    · trivial
    exact ok_answer _ (claimAndRun_ok _ _ t)
  · trivial

theorem expired_step (hr : r.Sound s) (hstatus : r.status = .pending) :
    RowStep ∅ s r { r with status := .expired } where
  id := rfl
  sound := by
    refine ⟨hr.spaced, hr.names, (fun h => nomatch h), (fun h => nomatch h), fun h => ?_, hr.running⟩
    simp at h
  rely others _ := by
    refine ⟨fun _ _ => Iff.rfl, fun run _ hheld => ⟨hheld, fun h => ?_⟩, fun h => ?_⟩
    · rw [hstatus] at h
      cases h
    · rw [hstatus] at h
      cases h

theorem propose_admits (hs : ActionsSound s) (hstatus : r.status = .pending) (hclaims : r.claims = [])
    (h : insert OwnerActions.requestsT .abort (fun _ => [r]) c s = .ok (n, t)) :
    actionSpec.Admits ∅ ∅ s t := by
  obtain ⟨-, requests, hrows, rfl⟩ := insert_abort_ok h
  have hrows : requests.rows = s.requests.rows ++ [r] := hrows
  refine ⟨⟨fun x hx => ?_, fun e he => ?_⟩, trivial, fun others _ _ => ?_, Set.subset_union_left⟩
  · change x ∈ requests.rows at hx
    rw [hrows, mem_append, mem_singleton] at hx
    rcases hx with hx | rfl
    · obtain ⟨hspaced, hnames, hpending, hprocessing, hrecorded, hrunning⟩ := hs.row x hx
      exact ⟨hspaced, hnames, hpending, hprocessing, hrecorded, hrunning⟩
    · refine ⟨?_, ?_, ?_, ?_, ?_, fun e he hid => ?_⟩
      · rw [hclaims]
        exact List.Pairwise.nil
      · rw [hclaims]
        exact fun c hc => nomatch hc
      · rw [hclaims]
        exact fun _ c hc => nomatch hc
      · rw [hstatus]
        exact fun h => nomatch h
      · intro h
        simp [hstatus] at h
      · obtain ⟨y, hy⟩ := hs.found e he
        have hfree : s.requests.get? x.id = none := get?_append_free hrows
        rw [hid, hfree] at hy
        cases hy
  · obtain ⟨x, hx⟩ := hs.found e he
    exact ⟨x, get?_append hrows hx⟩
  · refine ⟨Nat.le_refl _, fun id x hx => ⟨x, get?_append hrows hx, .refl _ x⟩, fun _ _ => Iff.rfl,
      (List.Subset.refl _), ?_⟩
    exact fun _ _ _ _ e he _ => he

theorem propose_ok (id : Id) (kind : OwnerActionKind) (supplierId : Id) (expiresAt : Time) (chatId : Nat)
    (sent : Except OwnerAlertError Nat) (s : OwnerActions) :
    Ok actionSpec anyEnd (proposeOwnerAction id kind supplierId expiresAt chatId sent) ∅ s := by
  refine Ok.commit fun t _ ht _ _ => ⟨fun _ => trivial, fun ns u hb => ?_⟩
  obtain ⟨n, hi, -⟩ := batch_single_ok hb
  refine ⟨∅, propose_admits ht rfl rfl hi, ?_⟩
  cases sent with
  | error e => trivial
  | ok messageId =>
    refine ok_answer _ (Bare.ok (quiet_update fun v hv r hr _ => ?_))
    exact .same (hv.row r hr) rfl rfl rfl rfl rfl

theorem supersede_ok (supplierId : Id) (s : OwnerActions) :
    Ok actionSpec anyEnd (supersedeOffers supplierId) ∅ s := by
  refine ok_answer _ (Bare.ok (quiet_update fun t ht r hr hp => expired_step (ht.row r hr) ?_))
  rw [and_eq_true, and_eq_true, beq_iff_eq, beq_iff_eq] at hp
  exact hp.1.2

theorem ownerActionCall_ok (call : OwnerActionCall) (s : OwnerActions) : Ok actionSpec anyEnd call.code ∅ s := by
  cases call with
  | propose => exact ok_answer _ (propose_ok _ _ _ _ _ _ s)
  | press => exact ok_answer _ (callback_ok _ _ s)
  | reply => exact ok_answer _ (reply_ok _ _ s)
  | supersede => exact supersede_ok _ s

/-! ## Runs -/

/-- Where no run goes on once its claim was taken over, the handlers of two runs overlap only by a takeover
after the lease, no handler starts once its row is settled, and a row records what a run of it came to. -/
theorem approval_runs_once {s : OwnerActions} (hs : ActionsSound s)
    {w w' : World OwnerActions OwnerActionSite OwnerAlertError Unit}
    (h : Runs OwnerActionCall.code claimHeld ⟨s, []⟩ w) (h' : Runs OwnerActionCall.code claimHeld w w') :
    Spaced w.db ∧ (∀ id r, w.db.requests.get? id = some r → r.status.settled = true →
        ∀ e ∈ w'.db.running, e.requestId = id → e ∈ w.db.running) ∧
      ∀ r ∈ w.db.requests.rows, r.Recorded w.db.ran := by
  have hcode : ∀ c s, actionSpec.inv s → Ok actionSpec anyEnd (OwnerActionCall.code c) ∅ s :=
    fun c s _ => ownerActionCall_ok c s
  obtain ⟨hgood, -⟩ := Runs.sound actionSpec hcode h (good_idle actionSpec hs)
  obtain ⟨-, hrely⟩ := Runs.sound actionSpec hcode h' hgood
  exact ⟨hgood.1.spaced, hrely.finished, fun r hr => (hgood.1.row r hr).recorded⟩

def openTopup : OwnerActions where
  requests := .of [⟨1, .agentWalletTopup, 0, .pending, some 5, some 6, none, none, none, none, none, 600000, []⟩]
  runs := 0
  running := []
  ran := []

def topupPress (now : Time) (answer : HandlerAnswer) : OwnerActionCall :=
  .press ⟨1, some 0, 5, 6, 7, false, true, some 5, none, now⟩ answer

theorem openTopup_sound : ActionsSound openTopup := by
  refine ⟨fun r hr => ?_, fun e he => nomatch he⟩
  obtain rfl := mem_singleton.mp hr
  refine ⟨List.Pairwise.nil, (fun c hc => nomatch hc), (fun _ c hc => nomatch hc), (fun h => nomatch h),
    fun h => ?_, fun e he => nomatch he⟩
  simp at h

/-- The first run is stuck in its handler, a second press takes the row over and is recorded. -/
theorem approval_runs_once_takeover : ∃ w w' : World OwnerActions OwnerActionSite OwnerAlertError Unit,
    Runs OwnerActionCall.code claimHeld ⟨openTopup, []⟩ w ∧ Runs OwnerActionCall.code claimHeld w w' ∧
      w'.db.running = [⟨1, 0, 1000⟩] ∧ (w'.db.requests.get? 1).map (·.status) = some .approved ∧
      Spaced w.db ∧ ∀ r ∈ w.db.requests.rows, r.Recorded w.db.ran := by
  obtain ⟨w, hw⟩ : ∃ w, w = exec OwnerActionCall.code claimHeld ⟨openTopup, []⟩
      ([Move.start (topupPress 1000 .error)] ++ replicate 5 (Move.run 0) ++
        [Move.start (topupPress 301001 (.line "done"))] ++ replicate 5 (Move.run 1)) := ⟨_, rfl⟩
  have hruns : Runs OwnerActionCall.code claimHeld ⟨openTopup, []⟩ w := by
    rw [hw]
    exact exec_runs _ _ _ _
  have hruns' := exec_runs OwnerActionCall.code claimHeld w [.run 1, .run 1]
  obtain ⟨hspaced, -, hrecorded⟩ := approval_runs_once openTopup_sound hruns hruns'
  refine ⟨w, _, hruns, hruns', ?_, ?_, hspaced, hrecorded⟩
  · rw [hw]
    decide
  · rw [hw]
    decide

/-- The run that was taken over fails and reopens the row under the run that has it, and a third press
claims it at once: two handlers are at work on claims a millisecond apart. -/
theorem approval_runs_twice : ∃ w : World OwnerActions OwnerActionSite OwnerAlertError Unit,
    Runs OwnerActionCall.code clockMonotone ⟨openTopup, []⟩ w ∧
      w.site 1 = some (.endHandler 1 1) ∧ w.site 2 = some (.endHandler 1 2) ∧
      w.db.running = [⟨1, 2, 301002⟩, ⟨1, 1, 301001⟩] ∧ ¬ Spaced w.db := by
  obtain ⟨w, hw⟩ : ∃ w, w = exec OwnerActionCall.code clockMonotone ⟨openTopup, []⟩
      ([Move.start (topupPress 1000 .error)] ++ replicate 5 (Move.run 0) ++
        [Move.start (topupPress 301001 (.line "done"))] ++ replicate 5 (Move.run 1) ++
        [Move.run 0, Move.run 0, Move.start (topupPress 301002 (.line "done"))] ++ replicate 5 (Move.run 2)) := ⟨_, rfl⟩
  refine ⟨w, ?_, ?_, ?_, ?_, ?_⟩
  · rw [hw]
    exact exec_runs _ _ _ _
  · rw [hw]
    decide
  · rw [hw]
    decide
  · rw [hw]
    decide
  · rw [hw]
    decide

end Gmshop
