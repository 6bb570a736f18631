import GmshopEdge.Lib.Alone

/-!
# Calls one at a time, among events

A `Turn` is the database with the one call that is in flight. While it waits, events change the database; a new
call starts only after the last one has ended, or has died.

A `Discipline` says what events may do (`rely`), what every state meets (`inv`) and how every two states on the way
are related (`guar`). `Prog.Safe` is the obligation on one call; `SerialRuns.sound` puts the calls together.
-/

namespace Sql

variable {σ ℓ ε α β κ : Type}

structure Turn (σ ℓ ε α : Type) : Type 1 where
  db : σ
  call : Prog σ ℓ ε α

/-- One step: an event, or an action, the start or the death of the call. -/
inductive SerialStep (code : κ → Prog σ ℓ ε α) (event : σ → σ → Prop) : Turn σ ℓ ε α → Turn σ ℓ ε α → Prop
  | event (w : Turn σ ℓ ε α) (s : σ) (h : event w.db s) : SerialStep code event w ⟨s, w.call⟩
  | start (w : Turn σ ℓ ε α) (c : κ) (h : w.call.ended = true) : SerialStep code event w ⟨w.db, code c⟩
  | run (s : σ) (l : Option ℓ) (β : Type) (f : σ → β × σ) (k : β → Prog σ ℓ ε α) :
      SerialStep code event ⟨s, .act l β f k⟩ ⟨(f s).2, k (f s).1⟩
  | kill (w : Turn σ ℓ ε α) : SerialStep code event w ⟨w.db, .fail .killed⟩

abbrev SerialRuns (code : κ → Prog σ ℓ ε α) (event : σ → σ → Prop) : Turn σ ℓ ε α → Turn σ ℓ ε α → Prop :=
  Relation.ReflTransGen (SerialStep code event)

variable {event : σ → σ → Prop} {code : κ → Prog σ ℓ ε α}

theorem SerialRuns.alone (p : Prog σ ℓ ε α) (s : σ) :
    ∃ q, q.ended = true ∧ SerialRuns code event ⟨s, p⟩ ⟨(p.alone s).2, q⟩ := by
  induction p generalizing s with
  | done a => exact ⟨_, rfl, .refl⟩
  | fail e => exact ⟨_, rfl, .refl⟩
  | act l δ f k ih =>
    obtain ⟨q, hended, hruns⟩ := ih (f s).1 (f s).2
    exact ⟨q, hended, .head (.run s l δ f k) hruns⟩

/-- The next action of the call, with no event before it. -/
def Turn.act : Turn σ ℓ ε α → Turn σ ℓ ε α
  | ⟨s, .act _ _ f k⟩ => ⟨(f s).2, k (f s).1⟩
  | w => w

/-- The call that is in flight goes on, among events. -/
inductive CallStep (event : σ → σ → Prop) : Turn σ ℓ ε α → Turn σ ℓ ε α → Prop
  | event (w : Turn σ ℓ ε α) (s : σ) (h : event w.db s) : CallStep event w ⟨s, w.call⟩
  | act (w : Turn σ ℓ ε α) : CallStep event w w.act

abbrev CallRuns (event : σ → σ → Prop) : Turn σ ℓ ε α → Turn σ ℓ ε α → Prop :=
  Relation.ReflTransGen (CallStep event)

/-- What the events and the calls of a system keep. -/
structure Discipline (σ : Type) where
  inv : σ → Prop
  rely : σ → σ → Prop
  guar : σ → σ → Prop
  rely_refl : ∀ s, rely s s
  rely_trans : ∀ s t u, rely s t → rely t u → rely s u
  guar_refl : ∀ s, guar s s
  guar_trans : ∀ s t u, guar s t → guar t u → guar s u

namespace Prog

variable {D : Discipline σ} {s : σ}

/-- Wherever events lead in between, each action keeps what the discipline says, and `Q` holds in the end. -/
def Safe (D : Discipline σ) (Q : Except (Failure ε) α → σ → Prop) : Prog σ ℓ ε α → σ → Prop
  | .done a, s => Q (.ok a) s
  | .fail e, s => Q (.error e) s
  | .act _ _ f k, s => ∀ t, D.rely s t → D.inv t → D.inv (f t).2 ∧ D.guar t (f t).2 ∧ Safe D Q (k (f t).1) (f t).2

variable {Q : Except (Failure ε) α → σ → Prop}

theorem Safe.mono {M : Except (Failure ε) α → σ → Prop} {p : Prog σ ℓ ε α} (h : Safe D M p s)
    (hQ : ∀ r t, M r t → Q r t) : Safe D Q p s := by
  induction p generalizing s with
  | done a => exact hQ _ _ h
  | fail e => exact hQ _ _ h
  | act l δ f k ih =>
    intro t hr hi
    obtain ⟨hinv, hguar, hk⟩ := h t hr hi
    exact ⟨hinv, hguar, ih _ hk⟩

variable {k : β → Prog σ ℓ ε α}

theorem Safe.bind {M : Except (Failure ε) β → σ → Prop} {p : Prog σ ℓ ε β} (hp : Safe D M p s)
    (hk : ∀ b t, M (.ok b) t → Safe D Q (k b) t) (he : ∀ e t, M (.error e) t → Q (.error e) t) :
    Safe D Q (p >>= k) s := by
  induction p generalizing s with
  | done b => exact hk b s hp
  | fail e => exact he e s hp
  | act l δ f j ih =>
    intro t hr hi
    obtain ⟨hinv, hguar, hj⟩ := hp t hr hi
    exact ⟨hinv, hguar, ih _ hj⟩

theorem Safe.query {f : σ → β} (h : ∀ t, D.rely s t → D.inv t → Safe D Q (k (f t)) t) :
    Safe D Q (Prog.query f >>= k) s :=
  fun t hr hi => ⟨hi, D.guar_refl t, h t hr hi⟩

theorem Safe.effect {x : ℓ} {f : σ → σ} {k : Unit → Prog σ ℓ ε α}
    (h : ∀ t, D.rely s t → D.inv t → D.inv (f t) ∧ D.guar t (f t) ∧ Safe D Q (k ()) (f t)) :
    Safe D Q (Prog.effect x f >>= k) s :=
  fun t hr hi => h t hr hi

theorem Safe.commit {x : ℓ} {sts : List (Stmt σ)} {k : List Nat → Prog σ ℓ ε α}
    (h : ∀ t, D.rely s t → D.inv t → (∀ a, Q (.error (.aborted a)) t) ∧
      ∀ ns u, batch sts 0 t = .ok (ns, u) → D.inv u ∧ D.guar t u ∧ Safe D Q (k ns) u) :
    Safe D Q (Prog.commit x sts >>= k) s := by
  intro t hr hi
  obtain ⟨habort, hok⟩ := h t hr hi
  dsimp only
  cases hb : batch sts 0 t with
  | error a => exact ⟨hi, D.guar_refl t, habort a⟩
  | ok r => exact hok r.1 r.2 hb

theorem Safe.tryCatch {M : Except (Failure ε) α → σ → Prop} {p : Prog σ ℓ ε α} {h : Failure ε → Prog σ ℓ ε α}
    (hp : Safe D M p s) (hok : ∀ a t, M (.ok a) t → Q (.ok a) t)
    (hkilled : ∀ t, M (.error .killed) t → Q (.error .killed) t)
    (hh : ∀ e t, M (.error e) t → Safe D Q (h e) t) : Safe D Q (p.tryCatch h) s := by
  induction p generalizing s with
  | done a => exact hok a s hp
  | fail e =>
    cases e with
    | killed => exact hkilled s hp
    | thrown x => exact hh _ s hp
    | aborted a => exact hh _ s hp
  | act l δ f k ih =>
    intro t hr hi
    obtain ⟨hinv, hguar, hk⟩ := hp t hr hi
    exact ⟨hinv, hguar, ih _ hk⟩

theorem Safe.wait {p : Prog σ ℓ ε α} {t : σ} (h : Safe D Q p s) (hr : D.rely s t)
    (hQ : ∀ r u v, Q r u → D.rely u v → Q r v) : Safe D Q p t := by
  cases p with
  | done a => exact hQ _ _ _ h hr
  | fail e => exact hQ _ _ _ h hr
  | act l δ f k => exact fun u hu => h u (D.rely_trans _ _ _ hr hu)

end Prog

variable {w' : Turn σ ℓ ε α}

theorem SerialRuns.sound {D : Discipline σ}
    (hevent : ∀ s t, event s t → D.inv s → D.inv t ∧ D.rely s t ∧ D.guar s t)
    (hcode : ∀ c s, D.inv s → Prog.Safe D (fun _ _ => True) (code c) s) {w : Turn σ ℓ ε α} (hi : D.inv w.db)
    (hsafe : Prog.Safe D (fun _ _ => True) w.call w.db) (h : SerialRuns code event w w') :
    D.inv w'.db ∧ D.guar w.db w'.db ∧ Prog.Safe D (fun _ _ => True) w'.call w'.db := by
  induction h with
  | refl => exact ⟨hi, D.guar_refl _, hsafe⟩
  | tail _ hstep ih =>
    obtain ⟨hi, hguar, hsafe⟩ := ih
    cases hstep with
    | event _ t h =>
      obtain ⟨hinv, hrely, hstep⟩ := hevent _ _ h hi
      exact ⟨hinv, D.guar_trans _ _ _ hguar hstep, hsafe.wait hrely fun _ _ _ h _ => h⟩
    | start _ c _ => exact ⟨hi, hguar, hcode c _ hi⟩
    | run s l β f k =>
      obtain ⟨hinv, hstep, hk⟩ := hsafe s (D.rely_refl s) hi
      exact ⟨hinv, D.guar_trans _ _ _ hguar hstep, hk⟩
    | kill => exact ⟨hi, hguar, trivial⟩

theorem CallRuns.sound {D : Discipline σ}
    (hevent : ∀ s t, event s t → D.inv s → D.inv t ∧ D.rely s t ∧ D.guar s t)
    {Q : Except (Failure ε) α → σ → Prop} (hQ : ∀ r u v, Q r u → D.rely u v → Q r v) {w : Turn σ ℓ ε α}
    (hi : D.inv w.db) (hsafe : Prog.Safe D Q w.call w.db) (h : CallRuns event w w') :
    D.inv w'.db ∧ Prog.Safe D Q w'.call w'.db := by
  induction h with
  | refl => exact ⟨hi, hsafe⟩
  | @tail w _ _ hstep ih =>
    obtain ⟨hi, hsafe⟩ := ih
    cases hstep with
    | event t h =>
      obtain ⟨hinv, hrely, -⟩ := hevent _ _ h hi
      exact ⟨hinv, hsafe.wait hrely hQ⟩
    | act =>
      obtain ⟨s, p⟩ := w
      cases p with
      | done a => exact ⟨hi, hsafe⟩
      | fail e => exact ⟨hi, hsafe⟩
      | act l β f k =>
        obtain ⟨hinv, -, hk⟩ := hsafe s (D.rely_refl s) hi
        exact ⟨hinv, hk⟩

end Sql
