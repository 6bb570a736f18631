import GmshopEdge.Lib.Guarantee

/-!
# What holds where a call acts

`Prog.Asserts S P` is the obligation `Prog.Ok` on a call with one more part: whenever the call is about to act at a
site `x`, and is allowed to, `P x` holds of the state. `P` can say that a batch finds what its call has read.

`Runs.asserts` puts the calls together, tokens included: in every world that a run reaches, the assertion holds at
the site of every call.
-/

namespace Sql

open Prog

namespace Prog

variable {σ ℓ ε α β τ : Type}

/-- `Ok`, and `P` at every labelled action. -/
def Asserts (S : Spec σ ℓ τ) (P : ℓ → σ → Prop) (Q : Except (Failure ε) α → Set τ → σ → Prop) :
    Prog σ ℓ ε α → Set τ → σ → Prop
  | .done a, own, s => Q (.ok a) own s
  | .fail e, own, s => Q (.error e) own s
  | .act l _ f k, own, s => ∀ t, S.rely own s t → S.inv t → own ⊆ S.issued t → (∀ x, l = some x → S.cond x t) →
      (∀ x, l = some x → P x t) ∧ ∃ own', S.Admits own own' t (f t).2 ∧ Asserts S P Q (k (f t).1) own' (f t).2

variable {S : Spec σ ℓ τ} {P : ℓ → σ → Prop} {Q : Except (Failure ε) α → Set τ → σ → Prop} {own : Set τ} {s : σ}

variable {p : Prog σ ℓ ε α}

theorem Asserts.mono {Q' : Except (Failure ε) α → Set τ → σ → Prop} (hQ : ∀ r o t, Q r o t → Q' r o t)
    (h : Asserts S P Q p own s) : Asserts S P Q' p own s := by
  induction p generalizing own s with
  | done a => exact hQ _ _ _ h
  | fail e => exact hQ _ _ _ h
  | act l δ f k ih =>
    intro t hr hi ho hc
    obtain ⟨hP, own', ha, hk⟩ := h t hr hi ho hc
    exact ⟨hP, own', ha, ih _ hk⟩

theorem Asserts.wait {t : σ} (h : Asserts S P anyEnd p own s) (hr : S.rely own s t) : Asserts S P anyEnd p own t := by
  cases p with
  | done a => trivial
  | fail e => trivial
  | act l δ f k => exact fun u hu => h u (S.rely_trans _ _ _ _ hr hu)

theorem Asserts.bind {Q : Except (Failure ε) β → Set τ → σ → Prop} {g : α → Prog σ ℓ ε β}
    (h : Asserts S P (fun r o t => match r with
      | .ok a => Asserts S P Q (g a) o t
      | .error e => Q (.error e) o t) p own s) : Asserts S P Q (p >>= g) own s := by
  induction p generalizing own s with
  | done a => exact h
  | fail e => exact h
  | act l δ f k ih =>
    intro t hr hi ho hc
    obtain ⟨hP, own', ha, hk⟩ := h t hr hi ho hc
    exact ⟨hP, own', ha, ih _ hk⟩

theorem Asserts.query {Q : Except (Failure ε) β → Set τ → σ → Prop} {g : σ → α} {k : α → Prog σ ℓ ε β}
    (h : ∀ t, S.rely own s t → S.inv t → Asserts S P Q (k (g t)) own t) :
    Asserts S P Q (query g >>= k) own s :=
  fun t hr hi _ _ => ⟨nofun, own, S.admits_refl hi, h t hr hi⟩

theorem Asserts.act {x : ℓ} {f : σ → β × σ} {k : β → Prog σ ℓ ε α}
    (h : ∀ t, S.rely own s t → S.inv t → own ⊆ S.issued t → S.cond x t →
      P x t ∧ ∃ own', S.Admits own own' t (f t).2 ∧ Asserts S P Q (k (f t).1) own' (f t).2) :
    Asserts S P Q (.act (some x) β f k) own s := by
  intro t hr hi ho hc
  obtain ⟨hP, hstep⟩ := h t hr hi ho (hc x rfl)
  exact ⟨fun y hy => Option.some.inj hy ▸ hP, hstep⟩

/-- A batch: the assertion holds, and it aborts and changes nothing or takes an admitted step. -/
theorem Asserts.commit {Q : Except (Failure ε) β → Set τ → σ → Prop} {x : ℓ} {sts : List (Stmt σ)}
    {k : List Nat → Prog σ ℓ ε β}
    (h : ∀ t, S.rely own s t → S.inv t → own ⊆ S.issued t → S.cond x t →
      P x t ∧ (∀ a, Q (.error (.aborted a)) own t) ∧
      ∀ ns u, batch sts 0 t = .ok (ns, u) → ∃ own', S.Admits own own' t u ∧ Asserts S P Q (k ns) own' u) :
    Asserts S P Q (commit x sts >>= k) own s := by
  intro t hr hi ho hc
  obtain ⟨hP, habort, hok⟩ := h t hr hi ho (hc x rfl)
  refine ⟨fun y hy => Option.some.inj hy ▸ hP, ?_⟩
  dsimp only
  cases hb : batch sts 0 t with
  | error a => exact ⟨own, S.admits_refl hi, habort a⟩
  | ok r => exact hok r.1 r.2 hb

/-! ### Calls without tokens -/

/-- The call owns nothing, keeps its assertions, and `Q` holds of its answer when it gives one. -/
def Attests (S : Spec σ ℓ τ) (P : ℓ → σ → Prop) (Q : α → σ → Prop) (p : Prog σ ℓ ε α) (s : σ) : Prop :=
  Asserts S P (fun r o t => o = ∅ ∧ S.rely ∅ s t ∧ ∀ a, r = .ok a → Q a t) p ∅ s

section Attests

variable {Q : α → σ → Prop} {s : σ}

theorem Attests.done {a : α} (h : Q a s) : Attests S P Q (.done a : Prog σ ℓ ε α) s := by
  refine ⟨rfl, S.rely_refl _ _, fun b hb => ?_⟩
  rw [← Except.ok.inj hb]
  exact h

theorem Attests.fail (e : Failure ε) : Attests S P Q (.fail e : Prog σ ℓ ε α) s :=
  ⟨rfl, S.rely_refl _ _, nofun⟩

theorem Attests.throw (e : ε) : Attests S P Q (throw e : Prog σ ℓ ε α) s := Attests.fail _

theorem Attests.asserts {p : Prog σ ℓ ε α} (h : Attests S P Q p s) : Asserts S P anyEnd p ∅ s :=
  Asserts.mono (fun _ _ _ _ => trivial) h

theorem Attests.later {p : Prog σ ℓ ε α} {t : σ} (hr : S.rely ∅ s t) (h : Attests S P Q p t) :
    Asserts S P (fun r o u => o = ∅ ∧ S.rely ∅ s u ∧ ∀ a, r = .ok a → Q a u) p ∅ t :=
  Asserts.mono (fun _ _ _ hu => ⟨hu.1, S.rely_trans _ _ _ _ hr hu.2.1, hu.2.2⟩) h

variable {k : β → Prog σ ℓ ε α}

theorem Attests.query {g : σ → β} (h : ∀ t, S.rely ∅ s t → S.inv t → Attests S P Q (k (g t)) t) :
    Attests S P Q (query g >>= k) s :=
  Asserts.query fun t hr hi => (h t hr hi).later hr

theorem Attests.bind {Q' : β → σ → Prop} {p : Prog σ ℓ ε β} (hp : Attests S P Q' p s)
    (hk : ∀ b t, S.rely ∅ s t → Q' b t → Attests S P Q (k b) t) : Attests S P Q (p >>= k) s := by
  refine Asserts.bind (Asserts.mono ?_ hp)
  rintro r o t ⟨rfl, hr, hQ⟩
  cases r with
  | ok b => exact (hk b t hr (hQ b rfl)).later hr
  | error e => exact ⟨rfl, hr, nofun⟩

variable {sts : List (Stmt σ)}

theorem Attests.commit {x : ℓ} {k : List Nat → Prog σ ℓ ε α}
    (h : ∀ t, S.rely ∅ s t → S.inv t → S.cond x t → P x t ∧ ∀ ns u, batch sts 0 t = .ok (ns, u) →
      S.Admits ∅ ∅ t u ∧ Attests S P Q (k ns) u) : Attests S P Q (commit x sts >>= k) s := by
  refine Asserts.commit fun t hr hi _ hc => ?_
  obtain ⟨hP, hstep⟩ := h t hr hi hc
  refine ⟨hP, fun a => ⟨rfl, hr, nofun⟩, fun ns u hb => ?_⟩
  obtain ⟨hadm, hk⟩ := hstep ns u hb
  exact ⟨∅, hadm, hk.later (S.rely_trans _ _ _ _ hr hadm.seen)⟩

theorem Attests.write {x : ℓ} {Q : List Nat → σ → Prop}
    (h : ∀ t, S.rely ∅ s t → S.inv t → S.cond x t → P x t ∧ ∀ ns u, batch sts 0 t = .ok (ns, u) →
      S.Admits ∅ ∅ t u ∧ Q ns u) : Attests S P Q (Prog.commit x sts : Prog σ ℓ ε (List Nat)) s := by
  intro t hr hi _ hc
  obtain ⟨hP, hstep⟩ := h t hr hi (hc x rfl)
  refine ⟨fun y hy => Option.some.inj hy ▸ hP, ∅, ?_⟩
  dsimp only
  cases hb : batch sts 0 t with
  | error a => exact ⟨S.admits_refl hi, rfl, hr, nofun⟩
  | ok r =>
    obtain ⟨hadm, hQ⟩ := hstep r.1 r.2 hb
    refine ⟨hadm, rfl, S.rely_trans _ _ _ _ hr hadm.seen, fun ns hns => ?_⟩
    rw [← Except.ok.inj hns]
    exact hQ

theorem Attests.act {x : ℓ} {f : σ → β × σ} {k : β → Prog σ ℓ ε α} (h : ∀ t, S.rely ∅ s t → S.inv t → S.cond x t →
      P x t ∧ S.Admits ∅ ∅ t (f t).2 ∧ Attests S P Q (k (f t).1) (f t).2) :
    Attests S P Q (.act (some x) β f k) s := by
  refine Asserts.act fun t hr hi _ hc => ?_
  obtain ⟨hP, hadm, hk⟩ := h t hr hi hc
  exact ⟨hP, ∅, hadm, hk.later (S.rely_trans _ _ _ _ hr hadm.seen)⟩

end Attests

end Prog

section Runs

variable {σ ℓ ε α κ τ : Type} (S : Spec σ ℓ τ) (P : ℓ → σ → Prop)

/-- The tokens are shared out among the calls, and each call keeps its assertions with its own. -/
def Asserted (w : World σ ℓ ε α) : Prop :=
  S.inv w.db ∧ ∃ own : Nat → Set τ, (∀ i, own i ⊆ S.issued w.db) ∧ (∀ i j, i ≠ j → Disjoint (own i) (own j)) ∧
    ∀ i p, w.calls[i]? = some p → Prog.Asserts S P Prog.anyEnd p (own i) w.db

variable {S P}

variable {w : World σ ℓ ε α} {code : κ → Prog σ ℓ ε α}

theorem Step.asserted (hcode : ∀ c s, S.inv s → Prog.Asserts S P anyEnd (code c) ∅ s) {w' : World σ ℓ ε α}
    (h : Step code S.cond w w') (hg : Asserted S P w) : Asserted S P w' := by
  obtain ⟨hi, own, hiss, hdisj, hok⟩ := hg
  cases h with
  | start c =>
    obtain ⟨hiss', hdisj'⟩ := shared_update (i := w.calls.length) hiss hdisj subset_rfl (Set.empty_subset _)
    refine ⟨hi, _, hiss', hdisj', fun i p hp => ?_⟩
    rcases getElem?_append_one hp with ⟨rfl, rfl⟩ | ⟨hne, hp⟩
    · rw [Function.update_self]
      exact hcode c w.db hi
    · rw [Function.update_of_ne hne]
      exact hok i p hp
  | kill i =>
    refine ⟨hi, own, hiss, hdisj, fun j p hp => ?_⟩
    rw [List.getElem?_set] at hp
    split at hp
    · split at hp
      · cases hp; trivial
      · cases hp
    · exact hok j p hp
  | run i l β f k hrun hc =>
    obtain ⟨-, own', hadm, hk⟩ := hok i _ hrun w.db (S.rely_refl _ _) hi (hiss i) hc
    obtain ⟨hiss', hdisj'⟩ := shared_update hiss hdisj hadm.mono hadm.owned
    refine ⟨hadm.inv, _, hiss', hdisj', fun j p hp => ?_⟩
    rw [List.getElem?_set] at hp
    split at hp
    · next hij =>
      subst hij
      split at hp
      · cases hp
        rw [Function.update_self]
        exact hk
      · cases hp
    · next hij =>
      rw [Function.update_of_ne (Ne.symm hij)]
      exact (hok j p hp).wait (hadm.rely _ (hiss j) (hdisj j i (Ne.symm hij)))

theorem Runs.asserted (hcode : ∀ c s, S.inv s → Prog.Asserts S P anyEnd (code c) ∅ s) {s : σ}
    (hs : S.inv s) (h : Runs code S.cond ⟨s, []⟩ w) : Asserted S P w := by
  induction h with
  | refl => exact ⟨hs, fun _ => ∅, fun _ => Set.empty_subset _, fun _ _ _ => Set.empty_disjoint _, by simp⟩
  | tail _ hstep ih => exact Step.asserted hcode hstep ih

/-- In every world that a run reaches, the assertion holds where a call is about to act. -/
theorem Runs.asserts (hcode : ∀ c s, S.inv s → Prog.Asserts S P anyEnd (code c) ∅ s) {s : σ} (hs : S.inv s)
    (h : Runs code S.cond ⟨s, []⟩ w) {i : Nat} {x : ℓ} (hx : w.site i = some x) (hc : S.cond x w.db) : P x w.db := by
  obtain ⟨hi, own, hiss, -, hok⟩ := Runs.asserted hcode hs h
  unfold World.site at hx
  cases hcall : w.calls[i]? with
  | none => simp [hcall] at hx
  | some p =>
    cases p with
    | done a => simp [hcall] at hx
    | fail e => simp [hcall] at hx
    | act l δ f k =>
      have hl : l = some x := by simpa [hcall] using hx
      refine (hok i _ hcall w.db (S.rely_refl _ _) hi (hiss i) fun y hy => ?_).1 x hl
      rw [hl] at hy
      rw [← Option.some.inj hy]
      exact hc

end Runs

end Sql
