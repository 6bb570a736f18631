import GmshopEdge.Lib.Interleave

/-!
# A call by itself

`Prog.Leaves Q p s`: when the call `p` runs from `s` with no other in between, `Q` holds of how it ends and of the
state it leaves.
-/

namespace Sql.Prog

variable {σ ℓ ε α β : Type}

def Leaves (Q : Except (Failure ε) α → σ → Prop) (p : Prog σ ℓ ε α) (s : σ) : Prop :=
  Q (p.alone s).1 (p.alone s).2

variable {Q : Except (Failure ε) α → σ → Prop} {s : σ}

theorem alone_query (f : σ → β) (k : β → Prog σ ℓ ε α) (s : σ) : (Prog.query f >>= k).alone s = (k (f s)).alone s := rfl

theorem Leaves.mono {M : Except (Failure ε) α → σ → Prop} {p : Prog σ ℓ ε α} (h : Leaves M p s)
    (hQ : ∀ r t, M r t → Q r t) : Leaves Q p s := hQ _ _ h

variable {k : β → Prog σ ℓ ε α}

theorem Leaves.bind {M : Except (Failure ε) β → σ → Prop} {p : Prog σ ℓ ε β} (hp : Leaves M p s)
    (hk : ∀ b t, M (.ok b) t → Leaves Q (k b) t) (he : ∀ e t, M (.error e) t → Q (.error e) t) :
    Leaves Q (p >>= k) s := by
  induction p generalizing s with
  | done b => exact hk b s hp
  | fail e => exact he e s hp
  | act l δ f j ih => exact ih _ hp

theorem Leaves.query {f : σ → β} (h : Leaves Q (k (f s)) s) :
    Leaves Q (Prog.query f >>= k) s := h

theorem Leaves.reads {P : β → Prop} {p : Prog σ ℓ ε β} (hp : Reads P p) (hk : ∀ b, P b → Leaves Q (k b) s)
    (he : ∀ e, Q (.error e) s) : Leaves Q (p >>= k) s := by
  induction p with
  | done b => exact hk b hp
  | fail e => exact he e
  | act l δ f j ih =>
    obtain ⟨-, hstep⟩ := hp
    show Leaves Q (j (f s).1 >>= k) (f s).2
    rw [(hstep s).1]
    exact ih _ (hstep s).2

theorem Leaves.effect {x : ℓ} {f : σ → σ} {k : Unit → Prog σ ℓ ε α} (h : Leaves Q (k ()) (f s)) :
    Leaves Q (Prog.effect x f >>= k) s := h

variable {sts : List (Stmt σ)} {k : List Nat → Prog σ ℓ ε α}

theorem Leaves.commit {x : ℓ} (habort : ∀ a, batch sts 0 s = .error a → Q (.error (.aborted a)) s)
    (hok : ∀ ns t, batch sts 0 s = .ok (ns, t) → Leaves Q (k ns) t) : Leaves Q (Prog.commit x sts >>= k) s := by
  rw [Leaves, Prog.commit, act_bind, Prog.alone]
  cases hb : batch sts 0 s with
  | error a => exact habort a hb
  | ok r => exact hok r.1 r.2 hb

theorem Leaves.commit_run {x : ℓ} {ns : List Nat} {t : σ} (h : batch sts 0 s = .ok (ns, t))
    (hk : Leaves Q (k ns) t) : Leaves Q (Prog.commit x sts >>= k) s := by
  rw [Leaves, Prog.commit, act_bind, Prog.alone]
  simp only [h]
  exact hk

theorem Leaves.tryCatch {M : Except (Failure ε) α → σ → Prop} {p : Prog σ ℓ ε α} {h : Failure ε → Prog σ ℓ ε α}
    (hp : Leaves M p s) (hok : ∀ a t, M (.ok a) t → Q (.ok a) t)
    (hkilled : ∀ t, M (.error .killed) t → Q (.error .killed) t)
    (hh : ∀ e t, e ≠ .killed → M (.error e) t → Leaves Q (h e) t) : Leaves Q (p.tryCatch h) s := by
  induction p generalizing s with
  | done a => exact hok a s hp
  | fail e =>
    cases e with
    | killed => exact hkilled s hp
    | thrown x => exact hh _ s nofun hp
    | aborted a => exact hh _ s nofun hp
  | act l δ f k ih => exact ih _ hp

theorem Only.leaves_kept {γ : Type} {g : σ → γ} {P : Stmt σ → Prop} {p : Prog σ ℓ ε α} (h : Only P p)
    (hP : ∀ st, P st → Stmt.Keeps g st) (s : σ) : g (p.alone s).2 = g s := by
  induction p generalizing s with
  | done a => rfl
  | fail e => rfl
  | act l δ f k ih =>
    obtain ⟨hstep, hk⟩ := h s
    have hkept : g (f s).2 = g s := by
      rcases hstep with heq | ⟨sts, ns, hsts, hb⟩
      · rw [heq]
      · exact batch_keeps (fun st hst => hP st (hsts st hst)) hb
    exact (ih _ hk _).trans hkept

end Sql.Prog
