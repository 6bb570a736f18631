import GmshopEdge.Db.Schema
import GmshopEdge.Lib.Guarantee

/-!
# Tracked tasks

`runTrackedTask` (`operations/server/task-runs.ts`). A run claims its task with one row of `operation_task_runs`: the
batch first fails the run whose lease is over, then inserts the row unless a live run of the task is there. After the
body the row is completed under its id.

The result of the body, the clock and the new id are arguments. The state also remembers whose bodies have begun and
ended; nothing reads that.
-/

namespace Gmshop

open List Sql Stmt Prog Bool Each

/-! ## The table -/

inductive TaskTrigger where
  | manual
  | scheduled

inductive TaskRunStatus where
  | running
  | succeeded
  | failed
  deriving DecidableEq

/-- A row of `operation_task_runs`. -/
structure TaskRun where
  id : Id
  task : String
  trigger : TaskTrigger
  schedule : Option String
  status : TaskRunStatus := .running
  startedAt : Int
  completedAt : Option Int := none
  durationMs : Option Int := none
  errorCode : Option String := none
  result : Option String := none

instance : KeyedRow TaskRun where
  clash a b := a.id == b.id
  key := TaskRun.id
  clash_of_key a b h := by simp [h]

structure TaskLog where
  runs : Table TaskRun
  begun : List Id
  ended : List Id

def TaskLog.runsT : TableRef TaskLog TaskRun := ⟨TaskLog.runs, fun s t => { s with runs := t }, fun _ _ => rfl⟩

def TaskLog.inBody (s : TaskLog) (id : Id) : Prop := id ∈ s.begun ∧ id ∉ s.ended

instance (s : TaskLog) (id : Id) : Decidable (s.inBody id) := inferInstanceAs (Decidable (_ ∧ _))

def TaskRun.live (r : TaskRun) (task : String) : Bool := r.task == task && r.status == .running

/-! ## The call -/

def TASK_LEASE_MS : Int := 30 * 60000

structure TaskInput where
  task : String
  trigger : TaskTrigger
  schedule : Option String := none
  now : Int

/-- What a run throws: another run of the task is active, or what the body throws. -/
inductive TaskError where
  | alreadyRunning (task : String) (attemptId : Id) (activeRunId : Option Id)
  | domain (e : DomainError)
  | timeout
  | other

def TaskError.code : TaskError → String
  | .alreadyRunning .. => "already_running"
  | .domain e => e.code
  | .timeout => "timeout"
  | .other => "task_failed"

def taskErrorCode : Failure TaskError → String
  | .thrown e => e.code
  | _ => "task_failed"

/-- What the body comes to, as JSON, and what the clock says when it is recorded, or when its failure is. -/
structure TaskBody where
  outcome : Except TaskError String
  completedAt : Int
  failedAt : Int

inductive TaskSite where
  | claim (startedAt : Int)
  | begin (id : Id)
  | finish (id : Id)
  | complete (id : Id)
  deriving DecidableEq

abbrev TaskProg := Prog TaskLog TaskSite TaskError

def expireLease (task : String) (startedAt leaseCutoff : Int) : Stmt TaskLog :=
  update TaskLog.runsT (fun _ r => r.live task && decide (r.startedAt ≤ leaseCutoff)) fun _ r =>
    { r with status := .failed, completedAt := some startedAt, durationMs := some (max 0 (startedAt - r.startedAt))
             errorCode := some "lease_expired" }

def TaskLog.activeRuns (s : TaskLog) (task : String) (leaseCutoff : Int) : List TaskRun :=
  s.runs.rows.filter fun r => r.live task && decide (leaseCutoff < r.startedAt)

def claimTask (id : Id) (input : TaskInput) (leaseCutoff : Int) : Stmt TaskLog :=
  insert TaskLog.runsT .abort fun s =>
    if (s.activeRuns input.task leaseCutoff).isEmpty then
      [{ id := id, task := input.task, trigger := input.trigger, schedule := input.schedule, startedAt := input.now }]
    else []

/-- The later of two runs; of two that started together, the one with the larger id. -/
def TaskRun.later (a b : TaskRun) : TaskRun :=
  if a.startedAt < b.startedAt ∨ a.startedAt = b.startedAt ∧ a.id < b.id then b else a

def TaskLog.activeRun (s : TaskLog) (task : String) (leaseCutoff : Int) : Option Id :=
  match s.activeRuns task leaseCutoff with
  | [] => none
  | r :: rs => some (rs.foldl TaskRun.later r).id

/-- `UPDATE … WHERE id = ? AND status = 'running'`. -/
def completeRun (id : Id) (f : TaskRun → TaskRun) : Stmt TaskLog :=
  update TaskLog.runsT (fun _ r => r.id == id && r.status == .running) fun _ r => f r

def succeedRun (id : Id) (startedAt completedAt : Int) (result : String) : Stmt TaskLog :=
  completeRun id fun r =>
    { r with status := .succeeded, completedAt := some completedAt, durationMs := some (max 0 (completedAt - startedAt))
             result := some result }

def failRun (id : Id) (startedAt completedAt : Int) (errorCode : String) : Stmt TaskLog :=
  completeRun id fun r =>
    { r with status := .failed, completedAt := some completedAt, durationMs := some (max 0 (completedAt - startedAt))
             errorCode := some errorCode }

def runBody (id : Id) (body : TaskBody) : TaskProg String := do
  effect (.begin id) fun s => { s with begun := id :: s.begun }
  effect (.finish id) fun s => { s with ended := id :: s.ended }
  match body.outcome with
  | .ok result => pure result
  | .error e => throw e

def runTrackedTask (input : TaskInput) (id : Id) (body : TaskBody) : TaskProg String := do
  let leaseCutoff := input.now - TASK_LEASE_MS
  let changes ← commit (.claim input.now) [expireLease input.task input.now leaseCutoff, claimTask id input leaseCutoff]
  if changes[1]? ≠ some 1 then
    let active ← query fun s : TaskLog => s.activeRun input.task leaseCutoff
    throw (.alreadyRunning input.task id active)
  else
    tryCatch (do
        let result ← runBody id body
        let _ ← commit (.complete id) [succeedRun id input.now body.completedAt result]
        pure result)
      fun error => do
        let _ ← commit (.complete id) [failRun id input.now body.failedAt (taskErrorCode error)]
        .fail error

/-! ## The invariant -/

/-- Runs of one task whose bodies go on are a lease apart; one that is no longer live has been replaced; one run of a
task is live at most. -/
structure Excluded (s : TaskLog) : Prop where
  apart : ∀ x ∈ s.runs.rows, ∀ y ∈ s.runs.rows, x.task = y.task → x.id ≠ y.id → x.id ∉ s.ended → y.id ∉ s.ended →
    x.startedAt + TASK_LEASE_MS ≤ y.startedAt ∨ y.startedAt + TASK_LEASE_MS ≤ x.startedAt
  replaced : ∀ x ∈ s.runs.rows, x.id ∉ s.ended → x.status ≠ .running →
    ∃ z ∈ s.runs.rows, x.startedAt + TASK_LEASE_MS ≤ z.startedAt
  single : ∀ x ∈ s.runs.rows, ∀ y ∈ s.runs.rows, ∀ task, x.live task = true → y.live task = true → x.id = y.id

variable {task : String} {id : Id} {s t : TaskLog} {input : TaskInput} {ns : List Nat} {f : TaskRun → TaskRun}

theorem live_iff {r : TaskRun} : r.live task = true ↔ r.task = task ∧ r.status = .running := by
  rw [TaskRun.live, and_eq_true, beq_iff_eq, beq_iff_eq]

structure SameRun (x y : TaskRun) : Prop where
  id : y.id = x.id
  task : y.task = x.task
  startedAt : y.startedAt = x.startedAt

theorem claim_cases {leaseCutoff : Int} (htask : input.task = task)
    (h : batch [expireLease task input.now leaseCutoff, claimTask id input leaseCutoff] 0 s = .ok (ns, t)) :
    t.ended = s.ended ∧ ∃ g : TaskRun → TaskRun, (∀ r, SameRun r (g r)) ∧
      (∀ r, r.live task = true → r.startedAt ≤ leaseCutoff → (g r).status = .failed) ∧
      (∀ r, (r.live task = true → leaseCutoff < r.startedAt) → g r = r) ∧
      ((∃ r ∈ s.runs.rows, r.live task = true ∧ leaseCutoff < r.startedAt) ∧ t = { s with runs := t.runs } ∧
          t.runs.rows = s.runs.rows.map g ∨
        (∀ r ∈ s.runs.rows, r.live task = true → r.startedAt ≤ leaseCutoff) ∧
          ∃ r, r.task = task ∧ r.status = .running ∧ r.startedAt = input.now ∧ t.runs.rows = s.runs.rows.map g ++ [r]) := by
  subst htask
  obtain ⟨n, m, ns', hexpire, hrest, rfl⟩ := batch_cons_ok h
  obtain ⟨n', hinsert, rfl⟩ := batch_single_ok hrest
  obtain ⟨-, runs, hruns, rfl⟩ := update_ok hexpire
  obtain ⟨-, runs', hruns', rfl⟩ := insert_abort_ok hinsert
  refine ⟨rfl, fun r => if r.live input.task && decide (r.startedAt ≤ leaseCutoff) then
    { r with status := .failed, completedAt := some input.now, durationMs := some (max 0 (input.now - r.startedAt))
             errorCode := some "lease_expired" } else r, ?_, ?_, ?_, ?_⟩
  · intro r
    dsimp only
    split <;> exact ⟨rfl, rfl, rfl⟩
  · intro r hlive hle
    have hexpired : (r.live input.task && decide (r.startedAt ≤ leaseCutoff)) = true := by
      rw [hlive, decide_eq_true hle]
      rfl
    simp only [hexpired, if_true]
  · intro r hlater
    refine if_neg fun hexpired => ?_
    rw [and_eq_true, decide_eq_true_eq] at hexpired
    have := hlater hexpired.1
    omega
  · -- a run that is live and not over is one before the batch
    have hactive : ∀ r, (r ∈ runs.rows ∧ r.live input.task = true ∧ leaseCutoff < r.startedAt) ↔
        (r ∈ s.runs.rows ∧ r.live input.task = true ∧ leaseCutoff < r.startedAt) := by
      intro r
      rw [hruns, List.mem_map]
      constructor
      · rintro ⟨⟨x, hx, rfl⟩, hlive, hlater⟩
        split at hlive
        · cases ((live_iff).mp hlive).2
        · rename_i hnot
          rw [if_neg hnot] at hlater ⊢
          exact ⟨hx, hlive, hlater⟩
      · rintro ⟨hr, hlive, hlater⟩
        refine ⟨⟨r, hr, if_neg ?_⟩, hlive, hlater⟩
        intro hexpired
        have hle := of_decide_eq_true (and_eq_true _ _ ▸ hexpired).2
        omega
    show (_ ∧ _ ∧ runs'.rows = _) ∨ (_ ∧ ∃ r, _ ∧ _ ∧ _ ∧ runs'.rows = _)
    rw [hruns']
    by_cases hsome : ∃ r ∈ s.runs.rows, r.live input.task = true ∧ leaseCutoff < r.startedAt
    · refine .inl ⟨hsome, rfl, ?_⟩
      obtain ⟨r, hr, hlive, hlater⟩ := hsome
      have hmem : r ∈ (TaskLog.runsT.set s runs).activeRuns input.task leaseCutoff := by
        refine List.mem_filter.mpr ⟨((hactive r).mpr ⟨hr, hlive, hlater⟩).1, ?_⟩
        rw [hlive, decide_eq_true hlater]
        rfl
      rw [if_neg fun hempty => by
        rw [List.isEmpty_iff.mp hempty] at hmem
        cases hmem]
      rw [List.append_nil]
      exact hruns
    · push Not at hsome
      refine .inr ⟨hsome, { id := id, task := input.task, trigger := input.trigger, schedule := input.schedule
                            startedAt := input.now }, rfl, rfl, rfl, ?_⟩
      rw [if_pos]
      · exact congrArg (· ++ _) hruns
      · rw [List.isEmpty_iff]
        refine List.filter_eq_nil_iff.mpr fun r hr hlive => ?_
        rw [and_eq_true, decide_eq_true_eq] at hlive
        have hle := hsome r ((hactive r).mp ⟨hr, hlive⟩).1 hlive.1
        omega

theorem claim_excluded (hs : Excluded s) (hclock : ∀ r ∈ s.runs.rows, r.startedAt ≤ input.now)
    (h : batch [expireLease input.task input.now (input.now - TASK_LEASE_MS),
      claimTask id input (input.now - TASK_LEASE_MS)] 0 s = .ok (ns, t)) : Excluded t ∧ t.ended = s.ended := by
  obtain ⟨hended, g, hsame, hfailed, hkept, ⟨⟨a, ha, hlive, hlater⟩, ht, hrows⟩ | ⟨hover, n, htask, hstatus, hnow, hrows⟩⟩ :=
    claim_cases rfl h
  · -- the live run is the only one, so that nothing changes
    have hid : t.runs = s.runs := by
      refine Table.ext_rows (hrows.trans ?_)
      rw [map_congr_left (g := fun r => r) fun r hr => hkept r fun hr' => ?_, map_id']
      obtain rfl := Table.eq_of_key hr ha (hs.single r hr a ha _ hr' hlive)
      exact hlater
    rw [hid] at ht
    exact ⟨ht ▸ hs, hended⟩
  · have hmem : ∀ z, z ∈ t.runs.rows ↔ (∃ r ∈ s.runs.rows, g r = z) ∨ z = n := by
      intro z
      rw [hrows, mem_append, mem_map, mem_singleton]
    have hnew : n ∈ t.runs.rows := (hmem n).mpr (.inr rfl)
    -- an earlier run of the task has ended, or started a lease before the new one
    have hearlier : ∀ r ∈ s.runs.rows, r.task = input.task → r.id ∉ s.ended →
        r.startedAt + TASK_LEASE_MS ≤ n.startedAt := by
      intro r hr hrtask hrended
      by_cases hrunning : r.status = .running
      · have hle := hover r hr (live_iff.mpr ⟨hrtask, hrunning⟩)
        omega
      · obtain ⟨z, hz, hle⟩ := hs.replaced r hr hrended hrunning
        have hzle := hclock z hz
        omega
    refine ⟨⟨fun x hx y hy hxy hne hxe hye => ?_, fun x hx hxe hrunning => ?_, fun x hx y hy task hxl hyl => ?_⟩, hended⟩
    · rw [hended] at hxe hye
      rcases (hmem x).mp hx with ⟨x, hx', rfl⟩ | rfl <;> rcases (hmem y).mp hy with ⟨y, hy', rfl⟩ | rfl
      · rw [(hsame x).task, (hsame y).task] at hxy
        rw [(hsame x).id] at hxe hne
        rw [(hsame y).id] at hye hne
        rw [(hsame x).startedAt, (hsame y).startedAt]
        exact hs.apart x hx' y hy' hxy hne hxe hye
      · rw [(hsame x).task, htask] at hxy
        rw [(hsame x).id] at hxe
        rw [(hsame x).startedAt]
        exact .inl (hearlier x hx' hxy hxe)
      · rw [(hsame y).task, htask] at hxy
        rw [(hsame y).id] at hye
        rw [(hsame y).startedAt]
        exact .inr (hearlier y hy' hxy.symm hye)
      · exact absurd rfl hne
    · rw [hended] at hxe
      rcases (hmem x).mp hx with ⟨x, hx', rfl⟩ | rfl
      · rw [(hsame x).id] at hxe
        rw [(hsame x).startedAt]
        by_cases hlive : x.live input.task = true
        · exact ⟨n, hnew, hearlier x hx' (live_iff.mp hlive).1 hxe⟩
        · rw [hkept x fun h => absurd h hlive] at hrunning
          obtain ⟨z, hz, hle⟩ := hs.replaced x hx' hxe hrunning
          exact ⟨g z, (hmem _).mpr (.inl ⟨z, hz, rfl⟩), (hsame z).startedAt ▸ hle⟩
      · exact absurd hstatus hrunning
    · -- a run before the batch that is still live is of another task
      have hother : ∀ r ∈ s.runs.rows, (g r).live task = true → g r = r ∧ r.task ≠ input.task := by
        intro r hr hrl
        have hnot : ¬ r.live input.task = true := fun hrl' => by
          have hrunning := (live_iff.mp hrl).2
          rw [hfailed r hrl' (hover r hr hrl')] at hrunning
          cases hrunning
        have hg := hkept r fun h => absurd h hnot
        rw [hg] at hrl
        exact ⟨hg, fun htask' => hnot (live_iff.mpr ⟨htask', (live_iff.mp hrl).2⟩)⟩
      rcases (hmem x).mp hx with ⟨x, hx', rfl⟩ | rfl <;> rcases (hmem y).mp hy with ⟨y, hy', rfl⟩ | rfl
      · obtain ⟨hgx, -⟩ := hother x hx' hxl
        obtain ⟨hgy, -⟩ := hother y hy' hyl
        rw [hgx] at hxl ⊢
        rw [hgy] at hyl ⊢
        exact hs.single x hx' y hy' task hxl hyl
      · obtain ⟨hg, hne⟩ := hother x hx' hxl
        rw [hg] at hxl
        exact absurd ((live_iff.mp hxl).1.trans ((live_iff.mp hyl).1.symm.trans htask)) hne
      · obtain ⟨hg, hne⟩ := hother y hy' hyl
        rw [hg] at hyl
        exact absurd ((live_iff.mp hyl).1.trans ((live_iff.mp hxl).1.symm.trans htask)) hne
      · rfl

/-! ## The runs -/

structure OwnRunOnly (id : Id) (s t : TaskLog) : Prop where
  others : ∀ r : TaskRun, r.id ≠ id → (r ∈ t.runs.rows ↔ r ∈ s.runs.rows)
  replaced : (∀ r ∈ s.runs.rows, r.id = id → r.status ≠ .running) → t = s

theorem OwnRunOnly.refl (id : Id) (s : TaskLog) : OwnRunOnly id s s := ⟨fun _ _ => Iff.rfl, fun _ => rfl⟩

theorem complete_ok (hs : Excluded s) (hended : id ∈ s.ended) (hsame : ∀ r, SameRun r (f r))
    (hdone : ∀ r, (f r).status ≠ .running) (h : batch [completeRun id f] 0 s = .ok (ns, t)) :
    Excluded t ∧ t.ended = s.ended ∧ OwnRunOnly id s t := by
  obtain ⟨n, hupdate, rfl⟩ := batch_single_ok h
  have hmiss := update_miss hupdate
  obtain ⟨-, runs, hrows, rfl⟩ := update_ok hupdate
  have hmem : ∀ z, z ∈ runs.rows → ∃ r ∈ s.runs.rows, SameRun r z ∧ (z = r ∨ z.id = id ∧ z.status ≠ .running) := by
    intro z hz
    obtain ⟨r, hr, rfl⟩ := mem_map.mp (hrows ▸ hz)
    refine ⟨r, hr, ?_⟩
    split
    · rename_i hcond
      rw [and_eq_true, beq_iff_eq] at hcond
      exact ⟨hsame r, .inr ⟨(hsame r).id.trans hcond.1, hdone r⟩⟩
    · exact ⟨⟨rfl, rfl, rfl⟩, .inl rfl⟩
  refine ⟨⟨fun x hx y hy hxy hne hxe hye => ?_, fun x hx hxe hrunning => ?_, fun x hx y hy task hxl hyl => ?_⟩, rfl,
    fun r hne => ?_, fun hover => ?_⟩
  · obtain ⟨x', hx', hxs, -⟩ := hmem x hx
    obtain ⟨y', hy', hys, -⟩ := hmem y hy
    rw [hxs.task, hys.task] at hxy
    rw [hxs.id, hys.id] at hne
    rw [hxs.startedAt, hys.startedAt]
    exact hs.apart x' hx' y' hy' hxy hne (hxs.id ▸ hxe) (hys.id ▸ hye)
  · obtain ⟨x', hx', hxs, rfl | ⟨hid, -⟩⟩ := hmem x hx
    · obtain ⟨z, hz, hle⟩ := hs.replaced x hx' hxe hrunning
      refine ⟨if z.id == id && z.status == .running then f z else z, ?_, ?_⟩
      · show _ ∈ runs.rows
        rw [hrows]
        exact mem_map_of_mem (f := fun r : TaskRun => if r.id == id && r.status == .running then f r else r) hz
      · split
        · rw [(hsame z).startedAt]
          exact hle
        · exact hle
    · exact absurd (hid ▸ hended) hxe
  · have hkept : ∀ z ∈ runs.rows, z.live task = true → z ∈ s.runs.rows := by
      intro z hz hlive
      obtain ⟨r, hr, -, rfl | ⟨-, hrunning⟩⟩ := hmem z hz
      · exact hr
      · exact absurd (live_iff.mp hlive).2 hrunning
    exact hs.single x (hkept x hx hxl) y (hkept y hy hyl) task hxl hyl
  · show r ∈ runs.rows ↔ _
    rw [hrows, mem_map]
    constructor
    · rintro ⟨x, hx, rfl⟩
      split at hne
      · rename_i hcond
        rw [and_eq_true, beq_iff_eq] at hcond
        exact absurd ((hsame x).id.trans hcond.1) hne
      · rename_i hcond
        rw [if_neg hcond]
        exact hx
    · intro hr
      refine ⟨r, hr, if_neg fun hcond => hne ?_⟩
      rw [and_eq_true, beq_iff_eq] at hcond
      exact hcond.1
  · refine hmiss fun r hr => ?_
    by_contra hhit
    rw [not_eq_false, and_eq_true, beq_iff_eq, beq_iff_eq] at hhit
    exact hover r hr hhit.1 hhit.2

def monotoneClock : TaskSite → TaskLog → Prop
  | .claim startedAt, s => ∀ r ∈ s.runs.rows, r.startedAt ≤ startedAt
  | _, _ => True

instance (x : TaskSite) (s : TaskLog) : Decidable (monotoneClock x s) := by
  cases x <;> unfold monotoneClock <;> infer_instance

def taskSpec : Spec TaskLog TaskSite Empty :=
  .ofRel Excluded monotoneClock (fun _ _ => True) (fun s t => s.ended ⊆ t.ended) (fun _ => trivial)
    (fun _ => List.Subset.refl _) fun _ _ _ h h' => List.Subset.trans h h'

instance (x : TaskSite) (s : TaskLog) : Decidable (taskSpec.cond x s) := inferInstanceAs (Decidable (monotoneClock x s))

theorem taskSpec_admits (ht : Excluded t) (hended : s.ended ⊆ t.ended) : taskSpec.Admits ∅ ∅ s t :=
  Spec.admits_ofRel ht trivial fun _ => hended

def Completes {α : Type} (x : TaskSite) (s t : TaskLog) (_ : TaskProg α) : Prop :=
  ∀ id, x = .complete id → OwnRunOnly id s t

theorem complete_each (hended : id ∈ s.ended) (hsame : ∀ r, SameRun r (f r)) (hdone : ∀ r, (f r).status ≠ .running) :
    Each taskSpec Completes (commit (.complete id) [completeRun id f]) s := by
  refine commit fun t hr hi _ ns u hb => ?_
  obtain ⟨hu, hsameEnded, hown⟩ := complete_ok hi (hr hended) hsame hdone hb
  refine ⟨taskSpec_admits hu (hsameEnded ▸ List.Subset.refl _), ?_⟩
  rintro id' ⟨⟩
  exact hown

theorem body_each {body : TaskBody} {k : String → TaskProg String} {h : Failure TaskError → TaskProg String}
    (hk : ∀ result t, id ∈ t.ended → Each taskSpec Completes ((k result).tryCatch h) t)
    (hh : ∀ e t, id ∈ t.ended → Each taskSpec Completes (h e) t) :
    Each taskSpec Completes ((runBody id body >>= k).tryCatch h) s := by
  intro t _ hi _
  refine ⟨taskSpec_admits ⟨hi.apart, hi.replaced, hi.single⟩ (List.Subset.refl _), .inr ⟨.begin id, rfl, nofun⟩, ?_⟩
  intro u _ hiu _
  have hend : Excluded { u with ended := id :: u.ended } := by
    refine ⟨fun x hx y hy hxy hne hxe hye => ?_, fun x hx hxe => ?_, hiu.single⟩
    · exact hiu.apart x hx y hy hxy hne (fun h => hxe (mem_cons_of_mem _ h)) fun h => hye (mem_cons_of_mem _ h)
    · exact hiu.replaced x hx fun h => hxe (mem_cons_of_mem _ h)
  refine ⟨taskSpec_admits hend (subset_cons_self _ _), .inr ⟨.finish id, rfl, nofun⟩, ?_⟩
  cases hout : body.outcome with
  | ok result => exact hk result _ mem_cons_self
  | error e => exact hh (.thrown e) _ mem_cons_self

theorem runTrackedTask_each (input : TaskInput) (id : Id) (body : TaskBody) (s : TaskLog) :
    Each taskSpec Completes (runTrackedTask input id body) s := by
  refine bind (commit fun t _ hi hc ns u hb => ?_) fun ns t _ => ?_
  · obtain ⟨hu, hended⟩ := claim_excluded hi hc hb
    exact ⟨taskSpec_admits hu (hended ▸ List.Subset.refl _), nofun⟩
  · split
    · exact query fun u _ _ => throw _
    · refine body_each (fun result u hended => ?_) fun e u hended => ?_
      · refine tryCatch ?_ fun e v hr => ?_
        · refine bind (complete_each hended (fun r => ⟨rfl, rfl, rfl⟩) fun r => ?_) fun _ _ _ => done _
          nofun
        · refine bind (complete_each (hr hended) (fun r => ⟨rfl, rfl, rfl⟩) fun r => ?_) fun _ _ _ => fail _
          nofun
      · refine bind (complete_each hended (fun r => ⟨rfl, rfl, rfl⟩) fun r => ?_) fun _ _ _ => fail _
        nofun

structure TaskCall where
  input : TaskInput
  id : Id
  body : TaskBody

def TaskCall.code (c : TaskCall) : TaskProg String := runTrackedTask c.input c.id c.body

def TaskLog.empty : TaskLog := ⟨.empty, [], []⟩

theorem excluded_empty : Excluded .empty :=
  ⟨fun _ h => absurd h not_mem_nil, fun _ h => absurd h not_mem_nil, fun _ h => absurd h not_mem_nil⟩

/-- Two bodies of one task go on together only if one was claimed a lease or more before the other, and a completion
leaves all other runs alone: of a run whose row has been taken over, it changes nothing. -/
theorem tracked_tasks_exclude {w : World TaskLog TaskSite TaskError String}
    (h : Runs TaskCall.code monotoneClock ⟨.empty, []⟩ w) :
    (∀ x ∈ w.db.runs.rows, ∀ y ∈ w.db.runs.rows, x.task = y.task → x.id ≠ y.id → w.db.inBody x.id → w.db.inBody y.id →
      x.startedAt + TASK_LEASE_MS ≤ y.startedAt ∨ y.startedAt + TASK_LEASE_MS ≤ x.startedAt) ∧
    ∀ i id, w.site i = some (.complete id) → OwnRunOnly id w.db (w.move TaskCall.code monotoneClock (.run i)).db := by
  have hcode : ∀ c s, taskSpec.inv s → Each taskSpec Completes (TaskCall.code c) s := fun c s _ =>
    runTrackedTask_each c.input c.id c.body s
  obtain ⟨hinv, -, -⟩ := Runs.each hcode excluded_empty h
  refine ⟨fun x hx y hy hxy hne hxb hyb => hinv.apart x hx y hy hxy hne hxb.2 hyb.2, fun i id hsite => ?_⟩
  rcases Runs.move (S := taskSpec) hcode excluded_empty h hsite with hsame | ⟨k, -, -, hown⟩
  · rw [show (w.move TaskCall.code monotoneClock (.run i)).db = w.db from hsame]
    exact .refl id w.db
  · exact hown id rfl

/-! ## A takeover -/

def firstCall : TaskCall := ⟨⟨"database_cleanup", .scheduled, none, 0⟩, 1, ⟨.ok "null", 1900000, 1900000⟩⟩

def secondCall : TaskCall := ⟨⟨"database_cleanup", .manual, none, 1800000⟩, 2, ⟨.ok "null", 1850000, 1850000⟩⟩

def takenOver : World TaskLog TaskSite TaskError String :=
  World.exec TaskCall.code monotoneClock ⟨.empty, []⟩
    [.start firstCall, .run 0, .run 0, .start secondCall, .run 1, .run 1]

def lateFinish : World TaskLog TaskSite TaskError String :=
  World.exec TaskCall.code monotoneClock takenOver [.run 0]

theorem tracked_tasks_exclude_late : lateFinish.db.runs.rows.map (·.id) = [1, 2] ∧
    lateFinish.site 0 = some (.complete 1) ∧
      OwnRunOnly 1 lateFinish.db (lateFinish.move TaskCall.code monotoneClock (.run 0)).db := by
  have hruns : Runs TaskCall.code monotoneClock ⟨.empty, []⟩ lateFinish :=
    (World.exec_runs TaskCall.code monotoneClock _ _).trans (World.exec_runs TaskCall.code monotoneClock _ _)
  have hsite : lateFinish.site 0 = some (.complete 1) := by decide
  exact ⟨by decide, hsite, (tracked_tasks_exclude hruns).2 0 1 hsite⟩

/-- Half an hour is not more than half an hour. -/
theorem taken_over_at_lease : ∃ w : World TaskLog TaskSite TaskError String,
    Runs TaskCall.code monotoneClock ⟨.empty, []⟩ w ∧ ∃ x ∈ w.db.runs.rows, ∃ y ∈ w.db.runs.rows,
      x.task = y.task ∧ x.id ≠ y.id ∧ w.db.inBody x.id ∧ w.db.inBody y.id ∧
        ¬ (x.startedAt + TASK_LEASE_MS < y.startedAt ∨ y.startedAt + TASK_LEASE_MS < x.startedAt) := by
  refine ⟨takenOver, World.exec_runs TaskCall.code monotoneClock _ _, ?_⟩
  decide

end Gmshop
