import GmshopEdge.Lib.Interleave

/-!
# What each action of a call does

`Prog.Bare` is the obligation on a call that owns no token: its steps are steps the others may see.
`Prog.Each S P` asks more: an action that changes the state satisfies `P`, which is told its site,
the states around it and what the call goes on with. `P` can say that only a call that answers has
changed anything, or that an action with a given label leaves a row alone.

`Each` is proved along the code of a call (`Each.query`, `Each.commit`, `Each.bind`, …), as `Bare` is;
`Runs.each` then gives it for every call in flight of every world that a run reaches.
-/

namespace Sql

open List Prog

theorem Spec.Admits.seen {σ ℓ τ : Type} {S : Spec σ ℓ τ} {t u : σ} (h : S.Admits ∅ ∅ t u) : S.rely ∅ t u :=
  h.rely ∅ (Set.empty_subset _) (Set.empty_disjoint _)

namespace Prog

variable {σ ℓ ε α β τ : Type}

/-- The call's actions are admitted steps, and those that change the state satisfy `P`. -/
def Each (S : Spec σ ℓ τ) (P : ℓ → σ → σ → Prog σ ℓ ε α → Prop) : Prog σ ℓ ε α → σ → Prop
  | .done _, _ => True
  | .fail _, _ => True
  | .act l _ f k, s => ∀ t, S.rely ∅ s t → S.inv t → (∀ x, l = some x → S.cond x t) → S.Admits ∅ ∅ t (f t).2 ∧
        ((f t).2 = t ∨ ∃ x, l = some x ∧ P x t (f t).2 (k (f t).1)) ∧
        Each S P (k (f t).1) (f t).2

variable {S : Spec σ ℓ τ} {P : ℓ → σ → σ → Prog σ ℓ ε α → Prop} {s : σ}

theorem Each.later {p : Prog σ ℓ ε α} {t : σ} (h : Each S P p s) (hr : S.rely ∅ s t) : Each S P p t := by
  cases p with
  | done a => trivial
  | fail e => trivial
  | act l δ f k => exact fun u hu => h u (S.rely_trans _ _ _ _ hr hu)

theorem Each.mono {P' : ℓ → σ → σ → Prog σ ℓ ε α → Prop} {p : Prog σ ℓ ε α} (h : Each S P p s)
    (hP : ∀ x t u q, P x t u q → P' x t u q) : Each S P' p s := by
  induction p generalizing s with
  | done a => trivial
  | fail e => trivial
  | act l δ f k ih =>
    intro t hr hi hc
    obtain ⟨hadm, hstep, hk⟩ := h t hr hi hc
    refine ⟨hadm, hstep.imp_right ?_, ih _ hk⟩
    rintro ⟨x, hx, hPx⟩
    exact ⟨x, hx, hP _ _ _ _ hPx⟩

theorem Each.done (a : α) : Each S P (.done a) s := trivial

theorem Each.fail (e : Failure ε) : Each S P (.fail e) s := trivial

theorem Each.throw (e : ε) : Each S P (throw e) s := trivial

theorem Each.query {g : σ → β} {k : β → Prog σ ℓ ε α} (h : ∀ t, S.rely ∅ s t → S.inv t → Each S P (k (g t)) t) :
    Each S P (query g >>= k) s := by
  intro t hr hi _
  exact ⟨S.admits_refl hi, Or.inl rfl, h t hr hi⟩

theorem Each.bind {p : Prog σ ℓ ε β} {k : β → Prog σ ℓ ε α} (hp : Each S (fun x t u q => P x t u (q >>= k)) p s)
    (hk : ∀ a t, S.rely ∅ s t → Each S P (k a) t) : Each S P (p >>= k) s := by
  induction p generalizing s with
  | done a => exact hk a s (S.rely_refl _ _)
  | fail e => trivial
  | act l δ f j ih =>
    intro t hr hi hc
    obtain ⟨hadm, hP, hj⟩ := hp t hr hi hc
    refine ⟨hadm, hP, ih _ hj fun a u hu => hk a u ?_⟩
    exact S.rely_trans _ _ _ _ hr (S.rely_trans _ _ _ _ hadm.seen hu)

theorem Each.void {P : ℓ → σ → σ → Prog σ ℓ ε Unit → Prop} {p : Prog σ ℓ ε β}
    (hp : Each S (fun x t u q => P x t u q.void) p s) : Each S P p.void s :=
  Each.bind hp fun _ _ _ => Each.done ()

theorem Each.tryCatch {p : Prog σ ℓ ε α} {h : Failure ε → Prog σ ℓ ε α}
    (hp : Each S (fun x t u q => P x t u (q.tryCatch h)) p s)
    (hh : ∀ e t, S.rely ∅ s t → Each S P (h e) t) : Each S P (p.tryCatch h) s := by
  induction p generalizing s with
  | done a => trivial
  | fail e =>
    cases e with
    | killed => trivial
    | thrown x => exact hh _ s (S.rely_refl _ _)
    | aborted a => exact hh _ s (S.rely_refl _ _)
  | act l δ f j ih =>
    intro t hr hi hc
    obtain ⟨hadm, hP, hj⟩ := hp t hr hi hc
    refine ⟨hadm, hP, ih _ hj fun e u hu => hh e u ?_⟩
    exact S.rely_trans _ _ _ _ hr (S.rely_trans _ _ _ _ hadm.seen hu)

variable {sts : List (Stmt σ)}

/-- A batch that may find nothing to do: it aborts, or changes nothing, or takes an admitted step that
satisfies `P`. -/
theorem Each.attempt {P : ℓ → σ → σ → Prog σ ℓ ε (List Nat) → Prop} {x : ℓ}
    (h : ∀ t, S.rely ∅ s t → S.inv t → S.cond x t → ∀ ns u, batch sts 0 t = .ok (ns, u) →
      u = t ∨ S.Admits ∅ ∅ t u ∧ P x t u (.done ns)) : Each S P (commit x sts) s := by
  intro t hr hi hc
  dsimp only
  cases hb : batch sts 0 t with
  | error a => exact ⟨S.admits_refl hi, Or.inl rfl, trivial⟩
  | ok r =>
    rcases h t hr hi (hc x rfl) r.1 r.2 hb with hu | ⟨hadm, hP⟩
    · rw [hu]
      exact ⟨S.admits_refl hi, Or.inl rfl, trivial⟩
    · exact ⟨hadm, Or.inr ⟨x, rfl, hP⟩, trivial⟩

theorem Each.commit {P : ℓ → σ → σ → Prog σ ℓ ε (List Nat) → Prop} {x : ℓ}
    (h : ∀ t, S.rely ∅ s t → S.inv t → S.cond x t → ∀ ns u, batch sts 0 t = .ok (ns, u) →
      S.Admits ∅ ∅ t u ∧ P x t u (.done ns)) : Each S P (commit x sts) s :=
  Each.attempt fun t hr hi hc ns u hb => Or.inr (h t hr hi hc ns u hb)

theorem Each.effect {P : ℓ → σ → σ → Prog σ ℓ ε Unit → Prop} {x : ℓ} {f : σ → σ}
    (h : ∀ t, S.rely ∅ s t → S.inv t → S.cond x t → S.Admits ∅ ∅ t (f t) ∧ P x t (f t) (.done ())) :
    Each S P (effect x f) s := by
  intro t hr hi hc
  obtain ⟨hadm, hP⟩ := h t hr hi (hc x rfl)
  exact ⟨hadm, Or.inr ⟨x, rfl, hP⟩, trivial⟩

theorem Each.reads {Q : β → Prop} {p : Prog σ ℓ ε β} {k : β → Prog σ ℓ ε α} (hp : Reads Q p)
    (hk : ∀ a t, Q a → S.rely ∅ s t → Each S P (k a) t) : Each S P (p >>= k) s := by
  induction p generalizing s with
  | done a => exact hk a s hp (S.rely_refl _ _)
  | fail e => trivial
  | act l δ f j ih =>
    obtain ⟨rfl, hread⟩ := hp
    intro t hr hi _
    rw [(hread t).1]
    refine ⟨S.admits_refl hi, Or.inl rfl, ih _ (hread t).2 fun a u ha hu => ?_⟩
    exact hk a u ha (S.rely_trans _ _ _ _ hr hu)

end Prog

/-! ## A system inside a larger one -/

section Relabel

variable {σ ℓ ℓ' ε α τ : Type} {g : Option ℓ → ℓ'}

/-- The call with its actions named in a larger system, its reads too. -/
def Prog.relabel (g : Option ℓ → ℓ') : Prog σ ℓ ε α → Prog σ ℓ' ε α
  | .done a => .done a
  | .fail e => .fail e
  | .act l β f k => .act (some (g l)) β f fun x => (k x).relabel g

/-- The larger system as calls with these sites see it. -/
def Spec.comap (g : Option ℓ → ℓ') (S : Spec σ ℓ' τ) : Spec σ ℓ τ where
  inv := S.inv
  cond x := S.cond (g (some x))
  guar := S.guar
  rely := S.rely
  issued := S.issued
  guar_refl := S.guar_refl
  rely_refl := S.rely_refl
  rely_trans := S.rely_trans
  issued_mono := S.issued_mono

theorem Spec.admits_comap {S : Spec σ ℓ' τ} {own own' : Set τ} {s t : σ} :
    (S.comap g).Admits own own' s t ↔ S.Admits own own' s t :=
  ⟨fun h => ⟨h.inv, h.guar, h.rely, h.owned⟩, fun h => ⟨h.inv, h.guar, h.rely, h.owned⟩⟩

/-- A call of the smaller system is in order in the larger one, and says of its actions what holds of
all of its sites. There are no tokens, so it owns none. -/
theorem Prog.Bare.each {S : Spec σ ℓ' Empty} {P : ℓ' → σ → σ → Prog σ ℓ' ε α → Prop}
    {p : Prog σ ℓ ε α} {s : σ} (h : Prog.Bare (S.comap g) p s) (hP : ∀ l t u q, P (g l) t u q) :
    Prog.Each S P (p.relabel g) s := by
  have hok : Prog.Ok (S.comap g) anyEnd p ∅ s := h.ok
  clear h
  induction p generalizing s with
  | done a => trivial
  | fail e => trivial
  | act l β f k ih =>
    intro t hr hi hc
    obtain ⟨own', hadm, hk⟩ := hok t hr hi (Set.empty_subset _) fun x hx => hc _ (by rw [hx])
    rw [Set.eq_empty_of_isEmpty own'] at hadm hk
    exact ⟨(Spec.admits_comap).mp hadm, Or.inr ⟨g l, rfl, hP _ _ _ _⟩, ih _ hk⟩

end Relabel

/-! ## Whole runs -/

section Runs

variable {σ ℓ ε α κ τ : Type} {S : Spec σ ℓ τ} {P : ℓ → σ → σ → Prog σ ℓ ε α → Prop}

variable {w w' : World σ ℓ ε α} {code : κ → Prog σ ℓ ε α}

theorem Step.each (hcode : ∀ c s, S.inv s → Prog.Each S P (code c) s) (h : Step code S.cond w w')
    (hi : S.inv w.db) (hcalls : ∀ p ∈ w.calls, Prog.Each S P p w.db) :
    S.inv w'.db ∧ S.rely ∅ w.db w'.db ∧ ∀ p ∈ w'.calls, Prog.Each S P p w'.db := by
  cases h with
  | start c =>
    refine ⟨hi, S.rely_refl _ _, fun p hp => ?_⟩
    rcases mem_append.mp hp with hp | hp
    · exact hcalls p hp
    · rw [mem_singleton.mp hp]
      exact hcode c w.db hi
  | kill i =>
    refine ⟨hi, S.rely_refl _ _, fun p hp => ?_⟩
    rcases mem_or_eq_of_mem_set hp with hp | rfl
    · exact hcalls p hp
    · trivial
  | run i l β f k hrun hc =>
    have hmem : act l β f k ∈ w.calls := mem_of_getElem? hrun
    obtain ⟨hadm, -, hk⟩ := hcalls _ hmem w.db (S.rely_refl _ _) hi hc
    have hseen := hadm.seen
    refine ⟨hadm.inv, hseen, fun p hp => ?_⟩
    rcases mem_or_eq_of_mem_set hp with hp | rfl
    · exact (hcalls p hp).later hseen
    · exact hk

/-- A run from a world whose calls are in order keeps the invariant and the calls in order. -/
theorem Runs.onward (hcode : ∀ c s, S.inv s → Prog.Each S P (code c) s) (hi : S.inv w.db)
    (hcalls : ∀ p ∈ w.calls, Prog.Each S P p w.db) (h : Runs code S.cond w w') :
    S.inv w'.db ∧ S.rely ∅ w.db w'.db ∧ ∀ p ∈ w'.calls, Prog.Each S P p w'.db := by
  induction h with
  | refl => exact ⟨hi, S.rely_refl _ _, hcalls⟩
  | tail _ hstep ih =>
    obtain ⟨hi', hr, hcalls'⟩ := ih
    obtain ⟨hi'', hr', hcalls''⟩ := Step.each hcode hstep hi' hcalls'
    exact ⟨hi'', S.rely_trans _ _ _ _ hr hr', hcalls''⟩

variable {s : σ}

/-- From a database that meets the invariant, every run keeps it, and each call in flight is in
order. -/
theorem Runs.each (hcode : ∀ c s, S.inv s → Prog.Each S P (code c) s) (hs : S.inv s)
    (h : Runs code S.cond ⟨s, []⟩ w) : S.inv w.db ∧ S.rely ∅ s w.db ∧ ∀ p ∈ w.calls, Prog.Each S P p w.db :=
  Runs.onward hcode hs (by simp) h

theorem Runs.next (hcode : ∀ c s, S.inv s → Prog.Each S P (code c) s) (hs : S.inv s)
    (h : Runs code S.cond ⟨s, []⟩ w) (hstep : Step code S.cond w w') : w'.db = w.db ∨ ∃ i x k, i < w.calls.length ∧
      w'.calls = w.calls.set i k ∧ S.cond x w.db ∧ P x w.db w'.db k := by
  cases hstep with
  | start c => exact Or.inl rfl
  | kill i => exact Or.inl rfl
  | run i l β f k hrun hc =>
    obtain ⟨hi, -, hcalls⟩ := Runs.each hcode hs h
    obtain ⟨-, hP, -⟩ := hcalls _ (List.mem_of_getElem? hrun) w.db (S.rely_refl _ _) hi hc
    refine hP.imp_right ?_
    rintro ⟨x, hx, hx'⟩
    exact ⟨i, x, _, (List.getElem?_eq_some_iff.mp hrun).1, rfl, hc x hx, hx'⟩

def World.site (w : World σ ℓ ε α) (i : Nat) : Option ℓ :=
  match w.calls[i]? with
  | some (.act l _ _ _) => l
  | _ => none

/-- A step that changes the state is the action of a call at its site, and satisfies `P`. -/
theorem Runs.stepped (hcode : ∀ c s, S.inv s → Prog.Each S P (code c) s) (hs : S.inv s)
    (h : Runs code S.cond ⟨s, []⟩ w) (hstep : Step code S.cond w w') : w'.db = w.db ∨ ∃ i x k, w.site i = some x ∧
      w'.calls = w.calls.set i k ∧ S.cond x w.db ∧ P x w.db w'.db k := by
  cases hstep with
  | start c => exact Or.inl rfl
  | kill i => exact Or.inl rfl
  | run i l β f k hrun hc =>
    obtain ⟨hi, -, hcalls⟩ := Runs.each hcode hs h
    obtain ⟨-, hP, -⟩ := hcalls _ (mem_of_getElem? hrun) w.db (S.rely_refl _ _) hi hc
    refine hP.imp_right ?_
    rintro ⟨x, rfl, hx'⟩
    exact ⟨i, x, _, by simp [World.site, hrun], rfl, hc x rfl, hx'⟩

theorem Runs.move (hcode : ∀ c s, S.inv s → Prog.Each S P (code c) s) [∀ x s, Decidable (S.cond x s)]
    (hs : S.inv s) (h : Runs code S.cond ⟨s, []⟩ w) {i : Nat} {x : ℓ} (hx : w.site i = some x) :
    (w.move code S.cond (.run i)).db = w.db ∨ ∃ k, (w.move code S.cond (.run i)).calls[i]? = some k ∧ S.cond x w.db ∧
        P x w.db (w.move code S.cond (.run i)).db k := by
  obtain ⟨hi, -, hcalls⟩ := Runs.each hcode hs h
  unfold World.site at hx
  cases hcall : w.calls[i]? with
  | none => simp [hcall] at hx
  | some p =>
    cases p with
    | done a => simp [hcall] at hx
    | fail e => simp [hcall] at hx
    | act l β f k =>
      have hl : l = some x := by simpa [hcall] using hx
      subst hl
      by_cases hc : S.cond x w.db
      · have hmove : w.move code S.cond (.run i) = ⟨(f w.db).2, w.calls.set i (k (f w.db).1)⟩ := by
          simp [World.move, hcall, hc]
        rw [hmove]
        obtain ⟨-, hP, -⟩ := hcalls _ (List.mem_of_getElem? hcall) w.db (S.rely_refl _ _) hi
          fun y hy => Option.some.inj hy ▸ hc
        refine hP.imp_right ?_
        rintro ⟨y, hy, hPy⟩
        cases hy
        refine ⟨_, ?_, hc, hPy⟩
        exact List.getElem?_set_self (List.getElem?_eq_some_iff.mp hcall).1
      · exact Or.inl (by simp [World.move, hcall, hc])

end Runs

/-! ## What an action leads to, whatever the states are -/

section Leads

variable {σ ℓ ℓ' ε α β κ : Type}

/-- Every labelled action of the call satisfies `P` in every state. -/
def Prog.Leads (P : ℓ → σ → σ → Prog σ ℓ ε α → Prop) : Prog σ ℓ ε α → Prop
  | .done _ => True
  | .fail _ => True
  | .act l _ f k => ∀ t, (∀ x, l = some x → P x t (f t).2 (k (f t).1)) ∧ Leads P (k (f t).1)

variable {P : ℓ → σ → σ → Prog σ ℓ ε α → Prop}

theorem Prog.Leads.query {g : σ → β} {k : β → Prog σ ℓ ε α} (h : ∀ b, Prog.Leads P (k b)) :
    Prog.Leads P (query g >>= k) := by
  intro t
  exact ⟨fun x hx => (nomatch hx), h (g t)⟩

theorem Prog.Leads.commit {x : ℓ} {sts : List (Stmt σ)} {k : List Nat → Prog σ ℓ ε α}
    (habort : ∀ t a, P x t t (.fail (.aborted a))) (h : ∀ t ns u, batch sts 0 t = .ok (ns, u) → P x t u (k ns))
    (hk : ∀ ns, Prog.Leads P (k ns)) : Prog.Leads P (commit x sts >>= k) := by
  intro t
  dsimp only
  cases hb : batch sts 0 t with
  | error a =>
    refine ⟨fun y hy => ?_, trivial⟩
    rw [← Option.some.inj hy]
    exact habort t a
  | ok r =>
    refine ⟨fun y hy => ?_, hk r.1⟩
    rw [← Option.some.inj hy]
    exact h t r.1 r.2 hb

theorem Prog.Leads.relabel {P : ℓ' → σ → σ → Prog σ ℓ' ε α → Prop} {g : Option ℓ → ℓ'}
    (h : ∀ l t u q, P (g l) t u q) (p : Prog σ ℓ ε α) : Prog.Leads P (p.relabel g) := by
  induction p with
  | done a => trivial
  | fail e => trivial
  | act l δ f k ih =>
    intro t
    refine ⟨fun x hx => ?_, ih _⟩
    rw [← Option.some.inj hx]
    exact h _ _ _ _

variable {cond : ℓ → σ → Prop} {w : World σ ℓ ε α} {P : ℓ → σ → σ → Prog σ ℓ ε α → Prop}
  {code : κ → Prog σ ℓ ε α}

theorem Runs.leads (hcode : ∀ c, Prog.Leads P (code c)) {s : σ} (h : Runs code cond ⟨s, []⟩ w) :
    ∀ p ∈ w.calls, Prog.Leads P p := by
  induction h with
  | refl => exact fun p hp => nomatch hp
  | tail _ hstep ih =>
    cases hstep with
    | start c =>
      intro p hp
      rcases mem_append.mp hp with hp | hp
      · exact ih p hp
      · rw [mem_singleton.mp hp]
        exact hcode c
    | kill i =>
      intro p hp
      rcases mem_or_eq_of_mem_set hp with hp | rfl
      · exact ih p hp
      · trivial
    | run i l δ f k hrun hc =>
      intro p hp
      rcases mem_or_eq_of_mem_set hp with hp | rfl
      · exact ih p hp
      · exact (ih _ (mem_of_getElem? hrun) _).2

theorem Runs.leads_move [∀ x s, Decidable (cond x s)] (hcode : ∀ c, Prog.Leads P (code c)) {s : σ}
    (h : Runs code cond ⟨s, []⟩ w) {i : Nat} {x : ℓ} (hx : w.site i = some x) (hc : cond x w.db) :
    ∃ k, (w.move code cond (.run i)).calls[i]? = some k ∧ P x w.db (w.move code cond (.run i)).db k := by
  unfold World.site at hx
  cases hcall : w.calls[i]? with
  | none => simp [hcall] at hx
  | some p =>
    cases p with
    | done a => simp [hcall] at hx
    | fail e => simp [hcall] at hx
    | act l β f k =>
      have hl : l = some x := by simpa [hcall] using hx
      subst hl
      have hmove : w.move code cond (.run i) = ⟨(f w.db).2, w.calls.set i (k (f w.db).1)⟩ := by
        simp [World.move, hcall, hc]
      rw [hmove]
      refine ⟨_, List.getElem?_set_self (List.getElem?_eq_some_iff.mp hcall).1, ?_⟩
      exact (Runs.leads hcode h _ (List.mem_of_getElem? hcall) w.db).1 x rfl

end Leads

/-! ## What a call answers -/

namespace Prog

variable {σ ℓ ε α β τ : Type}

/-- The call owns nothing, and `Q` holds of its answer when it gives one. -/
def Answers (S : Spec σ ℓ τ) (Q : α → σ → Prop) (p : Prog σ ℓ ε α) (s : σ) : Prop :=
  Ok S (fun r o t => o = ∅ ∧ S.rely ∅ s t ∧ ∀ a, r = .ok a → Q a t) p ∅ s

variable {S : Spec σ ℓ τ} {Q : α → σ → Prop} {s : σ}

theorem Answers.done {a : α} (h : Q a s) : Answers S Q (.done a : Prog σ ℓ ε α) s := by
  refine ⟨rfl, S.rely_refl _ _, fun b hb => ?_⟩
  rw [← Except.ok.inj hb]
  exact h

theorem Answers.fail (e : Failure ε) : Answers S Q (.fail e : Prog σ ℓ ε α) s :=
  ⟨rfl, S.rely_refl _ _, fun _ hb => nomatch hb⟩

theorem Answers.throw (e : ε) : Answers S Q (throw e : Prog σ ℓ ε α) s := Answers.fail _

theorem Bare.answers {p : Prog σ ℓ ε α} (h : Bare S p s) : Answers S (fun _ _ => True) p s :=
  Ok.mono (fun _ _ _ h => ⟨h.1, h.2, fun _ _ => trivial⟩) h

theorem Answers.later {p : Prog σ ℓ ε α} {t : σ} (hr : S.rely ∅ s t) (h : Answers S Q p t) :
    Ok S (fun r o u => o = ∅ ∧ S.rely ∅ s u ∧ ∀ a, r = .ok a → Q a u) p ∅ t :=
  Ok.mono (fun _ _ _ hu => ⟨hu.1, S.rely_trans _ _ _ _ hr hu.2.1, hu.2.2⟩) h

variable {k : β → Prog σ ℓ ε α}

theorem Answers.query {g : σ → β} (h : ∀ t, S.rely ∅ s t → S.inv t → Answers S Q (k (g t)) t) :
    Answers S Q (query g >>= k) s :=
  Ok.query fun t hr hi => (h t hr hi).later hr

theorem Answers.bind {M : β → σ → Prop} {p : Prog σ ℓ ε β} (hp : Answers S M p s)
    (hk : ∀ b t, S.rely ∅ s t → M b t → Answers S Q (k b) t) : Answers S Q (p >>= k) s := by
  refine Ok.bind (Ok.mono ?_ hp)
  rintro r o t ⟨rfl, hr, hQ⟩
  cases r with
  | ok b => exact (hk b t hr (hQ b rfl)).later hr
  | error e => exact ⟨rfl, hr, fun _ hb => nomatch hb⟩

theorem Answers.commit {x : ℓ} {sts : List (Stmt σ)} {k : List Nat → Prog σ ℓ ε α}
    (h : ∀ t, S.rely ∅ s t → S.inv t → S.cond x t → ∀ ns u, batch sts 0 t = .ok (ns, u) →
      S.Admits ∅ ∅ t u ∧ Answers S Q (k ns) u) : Answers S Q (commit x sts >>= k) s := by
  refine Ok.commit fun t hr hi _ hc => ⟨fun a => ⟨rfl, hr, fun _ hb => nomatch hb⟩, fun ns u hb => ?_⟩
  obtain ⟨hadm, hk⟩ := h t hr hi hc ns u hb
  exact ⟨∅, hadm, hk.later (S.rely_trans _ _ _ _ hr hadm.seen)⟩

theorem Answers.tryCatch {p : Prog σ ℓ ε α} {h : Failure ε → Prog σ ℓ ε α} (hp : Answers S Q p s)
    (hh : ∀ e t, S.rely ∅ s t → Answers S Q (h e) t) : Answers S Q (p.tryCatch h) s := by
  refine Ok.tryCatch (Ok.mono ?_ hp)
  rintro r o t ⟨rfl, hr, hQ⟩
  cases r with
  | ok a => exact ⟨rfl, hr, hQ⟩
  | error e =>
    cases e with
    | killed => exact ⟨rfl, hr, fun _ hb => nomatch hb⟩
    | thrown x => exact (hh _ t hr).later hr
    | aborted a => exact (hh _ t hr).later hr

end Prog

theorem Runs.answers {σ ℓ ε α κ : Type} {S : Spec σ ℓ Empty} {Q : α → σ → Prop}
    {code : κ → Prog σ ℓ ε α} (hQ : ∀ a s t, S.rely ∅ s t → Q a s → Q a t)
    (hcode : ∀ c s, S.inv s → Prog.Answers S Q (code c) s) {s : σ} (hs : S.inv s)
    {w : World σ ℓ ε α} (h : Runs code S.cond ⟨s, []⟩ w) :
    S.inv w.db ∧ ∀ a, .done a ∈ w.calls → Q a w.db := by
  have hall : S.inv w.db ∧ ∀ p ∈ w.calls, Prog.Ok S (fun r _ t => ∀ a, r = .ok a → Q a t) p ∅ w.db := by
    induction h with
    | refl => exact ⟨hs, fun p hp => nomatch hp⟩
    | tail _ hstep ih =>
      obtain ⟨hi, hcalls⟩ := ih
      cases hstep with
      | start c =>
        refine ⟨hi, fun p hp => ?_⟩
        rcases mem_append.mp hp with hp | hp
        · exact hcalls p hp
        · rw [mem_singleton.mp hp]
          exact Prog.Ok.mono (fun _ _ _ h => h.2.2) (hcode c _ hi)
      | kill i =>
        refine ⟨hi, fun p hp => ?_⟩
        rcases mem_or_eq_of_mem_set hp with hp | rfl
        · exact hcalls p hp
        · exact fun _ hb => nomatch hb
      | run i l β f k hrun hc =>
        obtain ⟨own', hadm, hk⟩ :=
          hcalls _ (mem_of_getElem? hrun) _ (S.rely_refl _ _) hi (Set.empty_subset _) hc
        rw [Set.eq_empty_of_isEmpty own'] at hadm hk
        refine ⟨hadm.inv, fun p hp => ?_⟩
        rcases mem_or_eq_of_mem_set hp with hp | rfl
        · -- a waiting call goes on waiting, an answer goes on holding
          have hp' := hcalls p hp
          cases p with
          | done a => exact fun b hb => hQ b _ _ hadm.seen (hp' b hb)
          | fail e => exact fun _ hb => nomatch hb
          | act l δ f k => exact fun u hu => hp' u (S.rely_trans _ _ _ _ hadm.seen hu)
        · exact hk
  refine ⟨hall.1, fun a ha => ?_⟩
  exact hall.2 _ ha a rfl

end Sql
