import GmshopEdge.Lib.Guarantee

/-!
# How a call ends

`Prog.caught` is a call as its caller sees it that catches what it throws. `Prog.Ends S g Q` is the obligation on
one call without tokens whose actions are named by `g`, its reads too: where the condition of its name holds, an
action is admitted, and `Q` holds of the state in the end, whether the call answers or fails.
-/

namespace Sql

namespace Prog

variable {σ ℓ ℓ' ε α β τ : Type}

def caught : Prog σ ℓ ε α → Prog σ ℓ ε (Except ε α)
  | .done a => .done (.ok a)
  | .fail .killed => .fail .killed
  | .fail (.thrown e) => .done (.error e)
  | .fail (.aborted a) => .fail (.aborted a)
  | .act l δ f k => .act l δ f fun d => (k d).caught

/-- Every action is admitted, and `Q` holds in the end. -/
def Ends (S : Spec σ ℓ' τ) (g : Option ℓ → ℓ') (Q : Except (Failure ε) α → σ → Prop) : Prog σ ℓ ε α → σ → Prop
  | .done a, s => Q (.ok a) s
  | .fail e, s => Q (.error e) s
  | .act l _ f k, s => ∀ t, S.rely ∅ s t → S.inv t → S.cond (g l) t →
      S.Admits ∅ ∅ t (f t).2 ∧ Ends S g Q (k (f t).1) (f t).2

variable {S : Spec σ ℓ' τ} {g : Option ℓ → ℓ'} {Q : Except (Failure ε) α → σ → Prop} {s : σ}

theorem Ends.mono {Q' : Except (Failure ε) α → σ → Prop} (hQ : ∀ r t, Q r t → Q' r t) {p : Prog σ ℓ ε α}
    (h : Ends S g Q p s) : Ends S g Q' p s := by
  induction p generalizing s with
  | done a => exact hQ _ _ h
  | fail e => exact hQ _ _ h
  | act l δ f k ih =>
    intro t hr hi hc
    obtain ⟨hadm, hk⟩ := h t hr hi hc
    exact ⟨hadm, ih _ hk⟩

variable {k : β → Prog σ ℓ ε α}

theorem Ends.bind {M : Except (Failure ε) β → σ → Prop} {p : Prog σ ℓ ε β} (hp : Ends S g M p s)
    (hk : ∀ b t, M (.ok b) t → Ends S g Q (k b) t) (he : ∀ e t, M (.error e) t → Q (.error e) t) :
    Ends S g Q (p >>= k) s := by
  induction p generalizing s with
  | done b => exact hk b s hp
  | fail e => exact he e s hp
  | act l δ f j ih =>
    intro t hr hi hc
    obtain ⟨hadm, hj⟩ := hp t hr hi hc
    exact ⟨hadm, ih _ hj⟩

theorem Ends.query {f : σ → β} (h : ∀ t, S.rely ∅ s t → S.inv t → S.cond (g none) t → Ends S g Q (k (f t)) t) :
    Ends S g Q (Prog.query f >>= k) s :=
  fun t hr hi hc => ⟨S.admits_refl hi, h t hr hi hc⟩

theorem Ends.commit {x : ℓ} {sts : List (Stmt σ)} {Q : Except (Failure ε) (List Nat) → σ → Prop}
    (h : ∀ t, S.rely ∅ s t → S.inv t → S.cond (g (some x)) t → (∀ a, Q (.error (.aborted a)) t) ∧
        ∀ ns u, batch sts 0 t = .ok (ns, u) → S.Admits ∅ ∅ t u ∧ Q (.ok ns) u) :
    Ends S g Q (Prog.commit x sts) s := by
  intro t hr hi hc
  obtain ⟨habort, hok⟩ := h t hr hi hc
  dsimp only
  cases hb : batch sts 0 t with
  | error a => exact ⟨S.admits_refl hi, habort a⟩
  | ok r => exact hok r.1 r.2 hb

variable {p : Prog σ ℓ ε α}

theorem Ends.tryCatch {M : Except (Failure ε) α → σ → Prop} {h : Failure ε → Prog σ ℓ ε α} (hp : Ends S g M p s)
    (hok : ∀ a t, M (.ok a) t → Q (.ok a) t) (hkilled : ∀ t, M (.error .killed) t → Q (.error .killed) t)
    (hh : ∀ e t, M (.error e) t → Ends S g Q (h e) t) : Ends S g Q (p.tryCatch h) s := by
  induction p generalizing s with
  | done a => exact hok a s hp
  | fail e =>
    cases e with
    | killed => exact hkilled s hp
    | thrown x => exact hh _ s hp
    | aborted a => exact hh _ s hp
  | act l δ f k ih =>
    intro t hr hi hc
    obtain ⟨hadm, hk⟩ := hp t hr hi hc
    exact ⟨hadm, ih _ hk⟩

theorem Ends.caught {Q' : Except ε α → σ → Prop} (h : Ends S g Q p s) (hok : ∀ a t, Q (.ok a) t → Q' (.ok a) t)
    (hthrown : ∀ e t, Q (.error (.thrown e)) t → Q' (.error e) t) :
    Ends S g (fun r t => ∀ a, r = .ok a → Q' a t) p.caught s := by
  induction p generalizing s with
  | done a =>
    intro b hb
    rw [← Except.ok.inj hb]
    exact hok a s h
  | fail e =>
    cases e with
    | killed => exact nofun
    | thrown x =>
      intro b hb
      rw [← Except.ok.inj hb]
      exact hthrown x s h
    | aborted a => exact nofun
  | act l δ f k ih =>
    intro t hr hi hc
    obtain ⟨hadm, hk⟩ := h t hr hi hc
    exact ⟨hadm, ih _ hk⟩

theorem Ends.answers {Q : α → σ → Prop} (h : Ends S g (fun r t => ∀ a, r = .ok a → Q a t) p s) :
    Answers S Q (p.relabel g) s := by
  induction p generalizing s with
  | done a => exact Answers.done (h a rfl)
  | fail e => exact Answers.fail e
  | act l δ f k ih =>
    intro t hr hi _ hc
    obtain ⟨hadm, hk⟩ := h t hr hi (hc _ rfl)
    exact ⟨∅, hadm, (ih _ hk).later (S.rely_trans _ _ _ _ hr hadm.seen)⟩

theorem Bare.ends {S : Spec σ ℓ' Empty} (h : Bare (S.comap g) p s) : Ends S g (fun _ _ => True) p s := by
  have hok : Ok (S.comap g) anyEnd p ∅ s := h.ok
  clear h
  induction p generalizing s with
  | done a => trivial
  | fail e => trivial
  | act l δ f k ih =>
    intro t hr hi hc
    obtain ⟨own', hadm, hk⟩ := hok t hr hi (Set.empty_subset _) fun x hx => by
      rw [hx] at hc
      exact hc
    rw [Set.eq_empty_of_isEmpty own'] at hadm hk
    exact ⟨Spec.admits_comap.mp hadm, ih _ hk⟩

end Prog

end Sql
