import Mathlib
import GmshopEdge.Lib.Statement

/-!
# Interleaved calls over one database

A call is a `Prog`: reads, committed batches and a result, each action one atomic step. A `World`
is the database with the calls in flight; `Step` lets any of them take its next action, starts a
new one, or kills one between two actions. `Runs` is any number of steps.

A `Spec` is what the calls of a system promise each other, in the rely / guarantee style:

* `inv` holds in every state, `guar` relates the two states of every step;
* `rely own s t` is what a call that owns the tokens `own` may assume of the steps the others take
  while it waits. A token is a right that at most one call holds (the claim on a row, say): it is
  `issued` once, by the step that creates it, and what others may do to the state shrinks with it.

`Prog.Ok` is the proof obligation on one call, alone; `Runs.sound` puts the calls together.
-/

namespace Sql

/-- How a call ends without a result: it threw, its batch aborted, or its worker died. -/
inductive Failure (ε : Type) where
  | thrown (e : ε)
  | aborted (a : Abort)
  | killed
  deriving DecidableEq

/-- A call: a result, a failure, or one atomic action and what follows on its answer. -/
inductive Prog (σ ℓ ε α : Type) : Type 1 where
  | done (a : α)
  | fail (e : Failure ε)
  | act (site : Option ℓ) (β : Type) (f : σ → β × σ) (k : β → Prog σ ℓ ε α)

namespace Prog

variable {σ ℓ ε α β γ : Type}

/-- Sequencing: the first call's result feeds the second. -/
def bind : Prog σ ℓ ε α → (α → Prog σ ℓ ε β) → Prog σ ℓ ε β
  | .done a, g => g a
  | .fail e, _ => .fail e
  | .act l δ f k, g => .act l δ f (fun d => (k d).bind g)

instance : Monad (Prog σ ℓ ε) where
  pure := .done
  bind := .bind

@[simp] theorem pure_eq (a : α) : (pure a : Prog σ ℓ ε α) = .done a := rfl
@[simp] theorem done_bind (a : α) (g : α → Prog σ ℓ ε β) : (Prog.done a >>= g) = g a := rfl
@[simp] theorem act_bind (l : Option ℓ) (δ : Type) (f : σ → δ × σ) (k : δ → Prog σ ℓ ε α)
    (g : α → Prog σ ℓ ε β) : (Prog.act l δ f k >>= g) = .act l δ f (fun d => k d >>= g) := rfl

theorem bind_assoc (p : Prog σ ℓ ε α) (f : α → Prog σ ℓ ε β) (g : β → Prog σ ℓ ε γ) :
    ((p >>= f) >>= g) = (p >>= fun a => f a >>= g) := by
  induction p with
  | done a => rfl
  | fail e => rfl
  | act l δ h k ih => exact congrArg (Prog.act l δ h) (funext fun d => ih d)

/-- `try p catch h`: a failure of `p` other than its worker's death goes to `h`. -/
def tryCatch : Prog σ ℓ ε α → (Failure ε → Prog σ ℓ ε α) → Prog σ ℓ ε α
  | .done a, _ => .done a
  | .fail .killed, _ => .fail .killed
  | .fail e, h => h e
  | .act l δ f k, h => .act l δ f (fun d => (k d).tryCatch h)

def throw (e : ε) : Prog σ ℓ ε α := .fail (.thrown e)

def void (p : Prog σ ℓ ε α) : Prog σ ℓ ε Unit := p >>= fun _ => .done ()

def query (g : σ → α) : Prog σ ℓ ε α := .act none α (fun s => (g s, s)) .done

/-- A batch committed at `site`: the change counts, or the abort with nothing written. -/
def commit (site : ℓ) (sts : List (Stmt σ)) : Prog σ ℓ ε (List Nat) :=
  .act (some site) (Except Abort (List Nat)) (fun s => match batch sts 0 s with
      | .ok (ns, s') => (.ok ns, s')
      | .error a => (.error a, s))
    (fun r => match r with
      | .ok ns => .done ns
      | .error a => .fail (.aborted a))

/-- A step outside the database that the model records. -/
def effect (site : ℓ) (f : σ → σ) : Prog σ ℓ ε Unit :=
  .act (some site) Unit (fun s => ((), f s)) .done

end Prog

/-- The call run with no other in between: how it ends, and the state it leaves. -/
def Prog.alone {σ ℓ ε α : Type} : Prog σ ℓ ε α → σ → Except (Failure ε) α × σ
  | .done a, s => (.ok a, s)
  | .fail e, s => (.error e, s)
  | .act _ _ f k, s => (k (f s).1).alone (f s).2

theorem Prog.alone_bind {σ ℓ ε α β : Type} {p : Prog σ ℓ ε α} {k : α → Prog σ ℓ ε β} {s t : σ} {a : α}
    (h : p.alone s = (.ok a, t)) : (p >>= k).alone s = (k a).alone t := by
  induction p generalizing s with
  | done b =>
    obtain ⟨rfl, rfl⟩ := h
    rfl
  | fail e => simp [Prog.alone] at h
  | act l δ f j ih => exact ih _ h

theorem Prog.alone_bind_ok {σ ℓ ε α β : Type} {p : Prog σ ℓ ε α} {k : α → Prog σ ℓ ε β} {s t : σ} {b : β}
    (h : (p >>= k).alone s = (.ok b, t)) : ∃ a m, p.alone s = (.ok a, m) ∧ (k a).alone m = (.ok b, t) := by
  induction p generalizing s with
  | done a => exact ⟨a, s, rfl, h⟩
  | fail e => cases h
  | act l δ f j ih => exact ih _ h

theorem Prog.commit_alone {σ ℓ ε : Type} {x : ℓ} {sts : List (Stmt σ)} {s t : σ} {ns : List Nat}
    (h : batch sts 0 s = .ok (ns, t)) : (Prog.commit x sts : Prog σ ℓ ε (List Nat)).alone s = (.ok ns, t) := by
  simp only [Prog.commit, Prog.alone, h]

/-! ## Worlds -/

section World

variable {σ ℓ ε α κ : Type}

/-- The database and the calls in flight (finished and killed ones keep their place). -/
structure World (σ ℓ ε α : Type) : Type 1 where
  db : σ
  calls : List (Prog σ ℓ ε α)

def Prog.ended : Prog σ ℓ ε α → Bool
  | .done _ => true
  | .fail _ => true
  | .act .. => false

def World.Quiescent (w : World σ ℓ ε α) : Prop := ∀ p ∈ w.calls, p.ended = true

instance (w : World σ ℓ ε α) : Decidable w.Quiescent :=
  inferInstanceAs (Decidable (∀ p ∈ w.calls, _))

/-- One step of the system whose calls are `code c`, restricted to actions `cond` allows. -/
inductive Step (code : κ → Prog σ ℓ ε α) (cond : ℓ → σ → Prop) :
    World σ ℓ ε α → World σ ℓ ε α → Prop
  | start (w : World σ ℓ ε α) (c : κ) : Step code cond w ⟨w.db, w.calls ++ [code c]⟩
  | run (w : World σ ℓ ε α) (i : Nat) (l : Option ℓ) (β : Type) (f : σ → β × σ)
      (k : β → Prog σ ℓ ε α) (hi : w.calls[i]? = some (.act l β f k))
      (hc : ∀ x, l = some x → cond x w.db) :
      Step code cond w ⟨(f w.db).2, w.calls.set i (k (f w.db).1)⟩
  | kill (w : World σ ℓ ε α) (i : Nat) : Step code cond w ⟨w.db, w.calls.set i (.fail .killed)⟩

/-- Any number of steps, in any order of the calls. -/
abbrev Runs (code : κ → Prog σ ℓ ε α) (cond : ℓ → σ → Prop) : World σ ℓ ε α → World σ ℓ ε α → Prop :=
  Relation.ReflTransGen (Step code cond)

def anySite : ℓ → σ → Prop := fun _ _ => True

instance (x : ℓ) (s : σ) : Decidable (anySite x s) := isTrue trivial

/-- A scheduler's choice. -/
inductive Move (κ : Type) where
  | start (c : κ)
  | run (i : Nat)
  | kill (i : Nat)

/-- The calls in order, each given `steps` actions before the next starts. -/
def oneByOne (cs : List κ) (steps : Nat) : List (Move κ) :=
  cs.zipIdx.flatMap fun c => .start c.1 :: List.replicate steps (.run c.2)

section Exec

variable (code : κ → Prog σ ℓ ε α) (cond : ℓ → σ → Prop) [∀ x s, Decidable (cond x s)]

def World.move (w : World σ ℓ ε α) : Move κ → World σ ℓ ε α
  | .start c => ⟨w.db, w.calls ++ [code c]⟩
  | .run i => match w.calls[i]? with
    | some (.act l _ f k) =>
      if ∀ x ∈ l, cond x w.db then ⟨(f w.db).2, w.calls.set i (k (f w.db).1)⟩ else w
    | _ => w
  | .kill i => ⟨w.db, w.calls.set i (.fail .killed)⟩

def World.exec (w : World σ ℓ ε α) (ms : List (Move κ)) : World σ ℓ ε α :=
  ms.foldl (World.move code cond) w

theorem World.move_cases (w : World σ ℓ ε α) (m : Move κ) :
    w.move code cond m = w ∨ Step code cond w (w.move code cond m) := by
  cases m with
  | start c => exact Or.inr (.start w c)
  | kill i => exact Or.inr (.kill w i)
  | run i =>
    simp only [World.move]
    split
    · next l β f k h =>
      split
      · next hc => exact Or.inr (.run w i l β f k h hc)
      · exact Or.inl rfl
    · exact Or.inl rfl

theorem World.move_step {w : World σ ℓ ε α} {m : Move κ} (h : w.move code cond m ≠ w) :
    Step code cond w (w.move code cond m) :=
  (w.move_cases code cond m).resolve_left h

theorem World.move_runs (w : World σ ℓ ε α) (m : Move κ) : Runs code cond w (w.move code cond m) := by
  rcases w.move_cases code cond m with h | h
  · rw [h]
  · exact .single h

theorem World.exec_runs (w : World σ ℓ ε α) (ms : List (Move κ)) : Runs code cond w (w.exec code cond ms) := by
  induction ms generalizing w with
  | nil => exact .refl
  | cons m ms ih => exact (w.move_runs code cond m).trans (ih _)

end Exec

end World

/-! ## Rely and guarantee -/

/-- What the calls of a system keep and promise (see the module text). -/
structure Spec (σ ℓ τ : Type) where
  inv : σ → Prop
  cond : ℓ → σ → Prop
  guar : σ → σ → Prop
  rely : Set τ → σ → σ → Prop
  issued : σ → Set τ
  guar_refl : ∀ s, guar s s
  rely_refl : ∀ own s, rely own s s
  rely_trans : ∀ own s t u, rely own s t → rely own t u → rely own s u
  issued_mono : ∀ s t, rely ∅ s t → issued s ⊆ issued t

namespace Spec

variable {σ ℓ τ : Type} (S : Spec σ ℓ τ)

/-- A step from `s` to `t` of a call that owns `own` and then `own'`. -/
structure Admits (own own' : Set τ) (s t : σ) : Prop where
  inv : S.inv t
  guar : S.guar s t
  rely : ∀ o, o ⊆ S.issued s → Disjoint o own → S.rely o s t
  owned : own' ⊆ own ∪ (S.issued t \ S.issued s)

variable {s : σ}

theorem admits_refl {own : Set τ} (h : S.inv s) : S.Admits own own s s where
  inv := h
  guar := S.guar_refl s
  rely := fun o _ _ => S.rely_refl o s
  owned := Set.subset_union_left

theorem Admits.mono {own own' : Set τ} {t : σ} (h : S.Admits own own' s t) : S.issued s ⊆ S.issued t :=
  S.issued_mono s t (h.rely ∅ (Set.empty_subset _) (Set.empty_disjoint _))

/-- `v` is what the read `g` answered in some state on the way to `t`. -/
def Seen {α : Type} (g : σ → α) (v : α) (t : σ) : Prop :=
  ∃ s, S.inv s ∧ S.rely ∅ s t ∧ g s = v

theorem Seen.here {α : Type} {g : σ → α} (h : S.inv s) : S.Seen g (g s) s :=
  ⟨s, h, S.rely_refl _ _, rfl⟩

theorem Seen.later {α : Type} {g : σ → α} {v : α} {t : σ} (h : S.Seen g v s) (hr : S.rely ∅ s t) : S.Seen g v t :=
  let ⟨r, hi, hrs, hv⟩ := h
  ⟨r, hi, S.rely_trans _ _ _ _ hrs hr, hv⟩

/-- A system without tokens: every step is in `guar` and in the relation `R` that the others rely on. -/
def ofRel {σ ℓ : Type} (inv : σ → Prop) (cond : ℓ → σ → Prop) (guar R : σ → σ → Prop)
    (guar_refl : ∀ s, guar s s) (hrefl : ∀ s, R s s) (htrans : ∀ s t u, R s t → R t u → R s u) :
    Spec σ ℓ Empty where
  inv := inv
  cond := cond
  guar := guar
  rely _ := R
  issued _ := ∅
  guar_refl := guar_refl
  rely_refl _ := hrefl
  rely_trans _ := htrans
  issued_mono _ _ _ := Set.Subset.rfl

theorem admits_ofRel {S : Spec σ ℓ τ} {t : σ} (hi : S.inv t) (hg : S.guar s t) (hr : ∀ own, S.rely own s t) :
    S.Admits ∅ ∅ s t :=
  ⟨hi, hg, fun _ _ _ => hr _, Set.empty_subset _⟩

end Spec

namespace Prog

variable {σ ℓ ε α β τ : Type}

/-- The obligation on one call in state `s` owning `own`, `Q` being what its end must meet.
Before each action the others may move the state as `rely` allows. -/
def Ok (S : Spec σ ℓ τ) (Q : Except (Failure ε) α → Set τ → σ → Prop) : Prog σ ℓ ε α → Set τ → σ → Prop
  | .done a, own, s => Q (.ok a) own s
  | .fail e, own, s => Q (.error e) own s
  | .act l _ f k, own, s => ∀ t, S.rely own s t → S.inv t → own ⊆ S.issued t → (∀ x, l = some x → S.cond x t) →
      ∃ own', S.Admits own own' t (f t).2 ∧ Ok S Q (k (f t).1) own' (f t).2

def anyEnd : Except (Failure ε) α → Set τ → σ → Prop := fun _ _ _ => True

variable {S : Spec σ ℓ τ} {own : Set τ} {s : σ}

variable {s : σ} {own : Set τ} {p : Prog σ ℓ ε α}

theorem Ok.mono {Q Q' : Except (Failure ε) α → Set τ → σ → Prop} (hQ : ∀ r o t, Q r o t → Q' r o t)
    (h : Ok S Q p own s) : Ok S Q' p own s := by
  induction p generalizing own s with
  | done a => exact hQ _ _ _ h
  | fail e => exact hQ _ _ _ h
  | act l δ f k ih =>
    intro t hr hi ho hc
    obtain ⟨own', ha, hk⟩ := h t hr hi ho hc
    exact ⟨own', ha, ih _ hk⟩

theorem Ok.wait {t : σ} (h : Ok S anyEnd p own s) (hr : S.rely own s t) : Ok S anyEnd p own t := by
  cases p with
  | done a => trivial
  | fail e => trivial
  | act l δ f k => exact fun u hu => h u (S.rely_trans _ _ _ _ hr hu)

variable {Q : Except (Failure ε) β → Set τ → σ → Prop}

theorem Ok.bind {g : α → Prog σ ℓ ε β} (h : Ok S (fun r o t => match r with
      | .ok a => Ok S Q (g a) o t
      | .error e => Q (.error e) o t) p own s) : Ok S Q (p >>= g) own s := by
  induction p generalizing own s with
  | done a => exact h
  | fail e => exact h
  | act l δ f k ih =>
    intro t hr hi ho hc
    obtain ⟨own', ha, hk⟩ := h t hr hi ho hc
    exact ⟨own', ha, ih _ hk⟩

theorem Ok.query {g : σ → α} {k : α → Prog σ ℓ ε β} (h : ∀ t, S.rely own s t → S.inv t → Ok S Q (k (g t)) own t) :
    Ok S Q (Prog.query g >>= k) own s :=
  fun t hr hi _ _ => ⟨own, S.admits_refl hi, h t hr hi⟩

variable {sts : List (Stmt σ)}

theorem Ok.commit {x : ℓ} {k : List Nat → Prog σ ℓ ε β}
    (h : ∀ t, S.rely own s t → S.inv t → own ⊆ S.issued t → S.cond x t → (∀ a, Q (.error (.aborted a)) own t) ∧
      ∀ ns u, batch sts 0 t = .ok (ns, u) → ∃ own', S.Admits own own' t u ∧ Ok S Q (k ns) own' u) :
    Ok S Q (Prog.commit x sts >>= k) own s := by
  intro t hr hi ho hc
  obtain ⟨habort, hok⟩ := h t hr hi ho (hc x rfl)
  dsimp only
  cases hb : batch sts 0 t with
  | error a => exact ⟨own, S.admits_refl hi, habort a⟩
  | ok r => exact hok r.1 r.2 hb

theorem Ok.effect {x : ℓ} {f : σ → σ} {k : Unit → Prog σ ℓ ε β}
    (h : ∀ t, S.rely own s t → S.inv t → own ⊆ S.issued t → S.cond x t →
      ∃ own', S.Admits own own' t (f t) ∧ Ok S Q (k ()) own' (f t)) : Ok S Q (Prog.effect x f >>= k) own s :=
  fun t hr hi ho hc => h t hr hi ho (hc x rfl)

variable {h : Failure ε → Prog σ ℓ ε α}

theorem Ok.tryCatch {Q : Except (Failure ε) α → Set τ → σ → Prop} (hp : Ok S (fun r o t => match r with
      | .ok a => Q (.ok a) o t
      | .error .killed => Q (.error .killed) o t
      | .error e => Ok S Q (h e) o t) p own s) : Ok S Q (p.tryCatch h) own s := by
  induction p generalizing own s with
  | done a => exact hp
  | fail e => cases e <;> exact hp
  | act l δ f k ih =>
    intro t hr hi ho hc
    obtain ⟨own', ha, hk⟩ := hp t hr hi ho hc
    exact ⟨own', ha, ih _ hk⟩

/-! ### Calls that only read -/

/-- The call takes no step but reads, and its result satisfies `P`. -/
def Reads (P : α → Prop) : Prog σ ℓ ε α → Prop
  | .done a => P a
  | .fail _ => True
  | .act l _ f k => l = none ∧ ∀ s, (f s).2 = s ∧ Reads P (k (f s).1)

theorem reads_query (g : σ → α) : Reads (fun _ => True) (Prog.query g : Prog σ ℓ ε α) :=
  ⟨rfl, fun _ => ⟨rfl, trivial⟩⟩

variable {P : α → Prop}

theorem Reads.bind {P' : β → Prop} {g : α → Prog σ ℓ ε β} (hp : Reads P p) (hg : ∀ a, P a → Reads P' (g a)) :
    Reads P' (p >>= g) := by
  induction p with
  | done a => exact hg a hp
  | fail e => trivial
  | act l δ f k ih => exact ⟨hp.1, fun s => ⟨(hp.2 s).1, ih _ (hp.2 s).2⟩⟩

theorem Reads.ok (hp : Reads P p) (own : Set τ) (s : σ) : Ok S anyEnd p own s := by
  induction p generalizing s with
  | done a => trivial
  | fail e => trivial
  | act l δ f k ih =>
    intro t _ hi _ _
    rw [(hp.2 t).1]
    exact ⟨own, S.admits_refl hi, ih _ (hp.2 t).2 t⟩

variable {k : α → Prog σ ℓ ε β}

/-- A call that only reads moves nothing: what follows it starts from some state `rely` allows. -/
theorem Ok.reads {Q : Except (Failure ε) β → Set τ → σ → Prop} (hp : Reads P p) (hs : S.inv s)
    (hfail : ∀ e t, S.rely own s t → Q (.error e) own t)
    (h : ∀ a t, P a → S.rely own s t → S.inv t → Ok S Q (k a) own t) : Ok S Q (p >>= k) own s := by
  induction p generalizing s with
  | done a => exact h a s hp (S.rely_refl _ _) hs
  | fail e => exact hfail e s (S.rely_refl _ _)
  | act l δ f j ih =>
    obtain ⟨rfl, hread⟩ := hp
    intro t hr hi ho _
    rw [(hread t).1]
    refine ⟨own, S.admits_refl hi, ih _ (hread t).2 hi ?_ ?_⟩
    · exact fun e u hu => hfail e u (S.rely_trans _ _ _ _ hr hu)
    · exact fun a u ha hu hiu => h a u ha (S.rely_trans _ _ _ _ hr hu) hiu

/-! ### Calls that own nothing -/

/-- A call that never owns a token: each of its steps is one of those the others may see. -/
def Bare (S : Spec σ ℓ τ) (p : Prog σ ℓ ε α) (s : σ) : Prop :=
  Ok S (fun _ o t => o = ∅ ∧ S.rely ∅ s t) p ∅ s

theorem Bare.ok (h : Bare S p s) : Ok S anyEnd p ∅ s :=
  Ok.mono (fun _ _ _ _ => trivial) h

theorem Bare.done (a : α) : Bare S (.done a : Prog σ ℓ ε α) s := ⟨rfl, S.rely_refl _ _⟩

theorem Bare.fail (e : Failure ε) : Bare S (.fail e : Prog σ ℓ ε α) s := ⟨rfl, S.rely_refl _ _⟩

theorem Bare.throw (e : ε) : Bare S (Prog.throw e : Prog σ ℓ ε α) s := Bare.fail _

theorem Reads.bare (hp : Reads P p) (s : σ) : Bare S p s := by
  induction p generalizing s with
  | done a => exact Bare.done a
  | fail e => exact Bare.fail e
  | act l δ f k ih =>
    intro t hr hi _ _
    rw [(hp.2 t).1]
    refine ⟨∅, S.admits_refl hi, Ok.mono (fun _ _ _ hu => ?_) (ih _ (hp.2 t).2 t)⟩
    exact ⟨hu.1, S.rely_trans _ _ _ _ hr hu.2⟩

theorem Bare.later {t : σ} (hr : S.rely ∅ s t) (h : Bare S p t) : Ok S (fun _ o u => o = ∅ ∧ S.rely ∅ s u) p ∅ t :=
  Ok.mono (fun _ _ _ hu => ⟨hu.1, S.rely_trans _ _ _ _ hr hu.2⟩) h

theorem Bare.query {g : σ → α} (h : ∀ t, S.rely ∅ s t → S.inv t → Bare S (k (g t)) t) :
    Bare S (Prog.query g >>= k) s :=
  Ok.query fun t hr hi => (h t hr hi).later hr

theorem Bare.bind (hp : Bare S p s) (hk : ∀ a t, S.rely ∅ s t → Bare S (k a) t) : Bare S (p >>= k) s := by
  refine Ok.bind (Ok.mono ?_ hp)
  rintro r o t ⟨rfl, hr⟩
  cases r with
  | ok a => exact (hk a t hr).later hr
  | error e => exact ⟨rfl, hr⟩

theorem Bare.void (hp : Bare S p s) : Bare S p.void s :=
  hp.bind fun _ _ _ => Bare.done ()

theorem Bare.reads (hp : Reads P p) (hk : ∀ a t, P a → S.rely ∅ s t → Bare S (k a) t) : Bare S (p >>= k) s := by
  induction p generalizing s with
  | done a => exact hk a s hp (S.rely_refl _ _)
  | fail e => exact Bare.fail e
  | act l δ f j ih =>
    obtain ⟨rfl, hread⟩ := hp
    intro t hr hi _ _
    rw [(hread t).1]
    refine ⟨∅, S.admits_refl hi, Bare.later hr (ih _ (hread t).2 fun a u ha hu => ?_)⟩
    exact hk a u ha (S.rely_trans _ _ _ _ hr hu)

theorem Bare.tryCatch (hp : Bare S p s) (hh : ∀ e t, S.rely ∅ s t → Bare S (h e) t) : Bare S (p.tryCatch h) s := by
  refine Ok.tryCatch (Ok.mono ?_ hp)
  rintro r o t ⟨rfl, hr⟩
  cases r with
  | ok a => exact ⟨rfl, hr⟩
  | error e =>
    cases e with
    | killed => exact ⟨rfl, hr⟩
    | thrown x => exact (hh _ t hr).later hr
    | aborted a => exact (hh _ t hr).later hr

theorem Bare.commit {x : ℓ}
    (h : ∀ t, S.rely ∅ s t → S.inv t → S.cond x t → ∀ ns u, batch sts 0 t = .ok (ns, u) →
      S.Admits ∅ ∅ t u) : Bare S (Prog.commit x sts : Prog σ ℓ ε (List Nat)) s := by
  intro t hr hi _ hc
  dsimp only
  cases hb : batch sts 0 t with
  | error a => exact ⟨∅, S.admits_refl hi, rfl, hr⟩
  | ok r =>
    have hadm := h t hr hi (hc x rfl) r.1 r.2 hb
    exact ⟨∅, hadm, rfl, S.rely_trans _ _ _ _ hr (hadm.rely ∅ (Set.empty_subset _) (Set.empty_disjoint _))⟩

/-! ### Calls known by their statements -/

/-- Every action of the call is a read or a batch of statements in `P`. -/
def Only (P : Stmt σ → Prop) : Prog σ ℓ ε α → Prop
  | .done _ => True
  | .fail _ => True
  | .act _ _ f k => ∀ s, ((f s).2 = s ∨
      ∃ sts ns, (∀ st ∈ sts, P st) ∧ batch sts 0 s = .ok (ns, (f s).2)) ∧ Only P (k (f s).1)

section Only

variable {P : Stmt σ → Prop}

variable {p : Prog σ ℓ ε α} {k : α → Prog σ ℓ ε β}

theorem Only.bind (hp : Only P p) (hk : ∀ a, Only P (k a)) : Only P (p >>= k) := by
  induction p with
  | done a => exact hk a
  | fail e => trivial
  | act l δ f j ih => exact fun s => ⟨(hp s).1, ih _ (hp s).2⟩

theorem Only.query {g : σ → α} (hk : ∀ a, Only P (k a)) : Only P (Prog.query g >>= k) :=
  fun s => ⟨Or.inl rfl, hk (g s)⟩

theorem Only.commit {x : ℓ} {sts : List (Stmt σ)} (h : ∀ st ∈ sts, P st) :
    Only P (Prog.commit x sts : Prog σ ℓ ε (List Nat)) := by
  intro s
  dsimp only
  cases hb : batch sts 0 s with
  | error a => exact ⟨Or.inl rfl, trivial⟩
  | ok r => exact ⟨Or.inr ⟨sts, r.1, h, hb⟩, trivial⟩

theorem Only.tryCatch {h : Failure ε → Prog σ ℓ ε α} (hp : Only P p) (hh : ∀ e, Only P (h e)) :
    Only P (p.tryCatch h) := by
  induction p with
  | done a => trivial
  | fail e => cases e <;> first | trivial | exact hh _
  | act l δ f j ih => exact fun s => ⟨(hp s).1, ih _ (hp s).2⟩

theorem Only.reads {P' : α → Prop} (hp : Reads P' p) (hk : ∀ a, P' a → Only P (k a)) : Only P (p >>= k) := by
  induction p with
  | done a => exact hk a hp
  | fail e => trivial
  | act l δ f j ih => exact fun s => ⟨Or.inl (hp.2 s).1, ih _ (hp.2 s).2⟩

theorem Only.bare {R : σ → σ → Prop} (hp : Only P p) (hrefl : ∀ s, R s s)
    (htrans : ∀ a b c, R a b → R b c → R a c) (hP : ∀ st, P st → Stmt.Within R st)
    (hR : ∀ t u, S.inv t → R t u → S.Admits ∅ ∅ t u) (s : σ) : Bare S p s := by
  induction p generalizing s with
  | done a => exact Bare.done a
  | fail e => exact Bare.fail e
  | act l δ f k ih =>
    intro t hr hi _ _
    obtain ⟨hstep, hk⟩ := hp t
    have hrel : R t (f t).2 := by
      rcases hstep with heq | ⟨sts, ns, hsts, hb⟩
      · rw [heq]
        exact hrefl t
      · exact batch_within hrefl htrans (fun st hst => hP st (hsts st hst)) hb
    have hadm := hR t (f t).2 hi hrel
    have hr' := S.rely_trans _ _ _ _ hr (hadm.rely ∅ (Set.empty_subset _) (Set.empty_disjoint _))
    exact ⟨∅, hadm, Bare.later hr' (ih _ hk (f t).2)⟩

end Only

end Prog

/-! ## Whole runs -/

section Sound

variable {σ ℓ ε α κ τ : Type} (S : Spec σ ℓ τ)

/-- The tokens are shared out among the calls, and each call is in order with its own. -/
def Good (w : World σ ℓ ε α) : Prop :=
  S.inv w.db ∧ ∃ own : Nat → Set τ, (∀ i, own i ⊆ S.issued w.db) ∧ (∀ i j, i ≠ j → Disjoint (own i) (own j)) ∧
    ∀ i p, w.calls[i]? = some p → Prog.Ok S Prog.anyEnd p (own i) w.db

/-- Call `i` goes on with tokens that it owned or that were issued since: the tokens are still shared out. -/
theorem shared_update {τ : Type} {own : Nat → Set τ} {i : Nat} {own' issued later : Set τ}
    (hiss : ∀ j, own j ⊆ issued) (hdisj : ∀ a b, a ≠ b → Disjoint (own a) (own b)) (hmono : issued ⊆ later)
    (howned : own' ⊆ own i ∪ (later \ issued)) :
    (∀ j, Function.update own i own' j ⊆ later) ∧
      ∀ a b, a ≠ b → Disjoint (Function.update own i own' a) (Function.update own i own' b) := by
  constructor
  · intro j
    rcases eq_or_ne j i with rfl | hne
    · rw [Function.update_self]
      intro x hx
      rcases howned hx with hx | hx
      · exact hmono (hiss j hx)
      · exact hx.1
    · rw [Function.update_of_ne hne]
      exact (hiss j).trans hmono
  · -- a token of another call was issued before this step, so it is none of the new ones
    have hfresh : ∀ j, j ≠ i → Disjoint (own j) own' := by
      intro j hj
      rw [Set.disjoint_left]
      intro x hx hx'
      rcases howned hx' with h | h
      · exact Set.disjoint_left.mp (hdisj j i hj) hx h
      · exact h.2 (hiss j hx)
    intro a b hab
    rcases eq_or_ne a i with rfl | hne
    · rw [Function.update_self, Function.update_of_ne (Ne.symm hab)]
      exact (hfresh b (Ne.symm hab)).symm
    · rcases eq_or_ne b i with rfl | hne'
      · rw [Function.update_self, Function.update_of_ne hne]
        exact hfresh a hne
      · rw [Function.update_of_ne hne, Function.update_of_ne hne']
        exact hdisj a b hab

theorem getElem?_append_one {α : Type 1} {l : List α} {a b : α} {i : Nat} (h : (l ++ [a])[i]? = some b) :
    i = l.length ∧ b = a ∨ i ≠ l.length ∧ l[i]? = some b := by
  by_cases hi : i = l.length
  · subst hi
    rw [List.getElem?_concat_length, Option.some.injEq] at h
    exact Or.inl ⟨rfl, h.symm⟩
  · have hlt : i < l.length := by
      have := (List.getElem?_eq_some_iff.mp h).1
      simp at this
      omega
    rw [List.getElem?_append_left hlt] at h
    exact Or.inr ⟨hi, h⟩

variable {w w' : World σ ℓ ε α} {code : κ → Prog σ ℓ ε α}

theorem Step.sound (hcode : ∀ c s, S.inv s → Prog.Ok S Prog.anyEnd (code c) ∅ s) (h : Step code S.cond w w')
    (hg : Good S w) : Good S w' ∧ S.guar w.db w'.db ∧ S.rely ∅ w.db w'.db := by
  obtain ⟨hi, own, hiss, hdisj, hok⟩ := hg
  cases h with
  | start c =>
    obtain ⟨hiss', hdisj'⟩ := shared_update (i := w.calls.length) hiss hdisj subset_rfl (Set.empty_subset _)
    refine ⟨⟨hi, _, hiss', hdisj', fun i p hp => ?_⟩, S.guar_refl _, S.rely_refl _ _⟩
    rcases getElem?_append_one hp with ⟨rfl, rfl⟩ | ⟨hne, hp⟩
    · rw [Function.update_self]
      exact hcode c w.db hi
    · rw [Function.update_of_ne hne]
      exact hok i p hp
  | kill i =>
    refine ⟨⟨hi, own, hiss, hdisj, ?_⟩, S.guar_refl _, S.rely_refl _ _⟩
    intro j p hp
    rw [List.getElem?_set] at hp
    split at hp
    · split at hp
      · cases hp; trivial
      · cases hp
    · exact hok j p hp
  | run i l β f k hrun hc =>
    obtain ⟨own', hadm, hk⟩ :=
      hok i _ hrun w.db (S.rely_refl _ _) hi (hiss i) hc
    obtain ⟨hiss', hdisj'⟩ := shared_update hiss hdisj hadm.mono hadm.owned
    refine ⟨⟨hadm.inv, _, hiss', hdisj', fun j p hp => ?_⟩, hadm.guar,
      hadm.rely ∅ (Set.empty_subset _) (Set.empty_disjoint _)⟩
    rw [List.getElem?_set] at hp
    split at hp
    · next hij =>
      subst hij
      split at hp
      · cases hp
        rw [Function.update_self]
        exact hk
      · cases hp
    · next hij =>
      rw [Function.update_of_ne (Ne.symm hij)]
      exact (hok j p hp).wait (hadm.rely _ (hiss j) (hdisj j i (Ne.symm hij)))

/-- From a good world every run ends in a good world, and relates its ends by `rely ∅`. -/
theorem Runs.sound (hcode : ∀ c s, S.inv s → Prog.Ok S Prog.anyEnd (code c) ∅ s) (h : Runs code S.cond w w')
    (hg : Good S w) : Good S w' ∧ S.rely ∅ w.db w'.db := by
  induction h with
  | refl => exact ⟨hg, S.rely_refl _ _⟩
  | tail _ hstep ih =>
    obtain ⟨hg', -, hr⟩ := Step.sound S hcode hstep ih.1
    exact ⟨hg', S.rely_trans _ _ _ _ ih.2 hr⟩

theorem good_idle {s : σ} (h : S.inv s) : Good S (⟨s, []⟩ : World σ ℓ ε α) :=
  ⟨h, fun _ => ∅, fun _ => Set.empty_subset _, fun _ _ _ => Set.empty_disjoint _, by simp⟩

end Sound

end Sql
