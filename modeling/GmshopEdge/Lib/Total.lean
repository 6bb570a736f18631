import GmshopEdge.Lib.Statement

/-!
# Statements that go through

A statement is `Total` where no state makes it abort. A batch of total statements goes through (`batch_total`); an
UPDATE does where the new rows meet the constraints (`update_runs`), an INSERT that skips clashes where they are valid.
-/

namespace Sql

open List Table Except

variable {σ ρ : Type}

def Total (st : Stmt σ) : Prop := ∀ c s, ∃ n t, st c s = .ok (n, t)

theorem batch_total {sts : List (Stmt σ)} (h : ∀ st ∈ sts, Total st) (c : Nat) (s : σ) :
    ∃ ns t, batch sts c s = .ok (ns, t) := by
  induction sts generalizing c s with
  | nil => exact ⟨[], s, rfl⟩
  | cons st sts ih =>
    obtain ⟨n, s1, h1⟩ := h st mem_cons_self c s
    obtain ⟨ns, t, h2⟩ := ih (fun x hx => h x (mem_cons_of_mem _ hx)) n s1
    exact ⟨n :: ns, t, by simp only [batch, h1, h2, bind, Except.bind]⟩

theorem batch_append {xs : List (Stmt σ)} (ys : List (Stmt σ)) {c : Nat} {s s1 : σ} {ns : List Nat}
    (h : batch xs c s = .ok (ns, s1)) : batch (xs ++ ys) c s =
      (batch ys (ns.getLast?.getD c) s1).map fun r => (ns ++ r.1, r.2) := by
  induction xs generalizing c s ns with
  | nil =>
    obtain ⟨rfl, rfl⟩ := batch_nil_ok h
    show batch ys c s = (batch ys c s).map fun r => ([] ++ r.1, r.2)
    cases batch ys c s <;> rfl
  | cons st xs ih =>
    obtain ⟨n, s2, ns', h1, h2, rfl⟩ := batch_cons_ok h
    rw [cons_append, batch, h1]
    show (batch (xs ++ ys) n s2 >>= fun r => ok (n :: r.1, r.2)) = _
    rw [ih h2, getLast?_cons, Option.getD_some]
    cases batch ys (ns'.getLast?.getD n) s1 <;> rfl

/-- A batch around one statement that goes through where the others before it have left `g` as it was. -/
theorem batch_around {γ : Type} {g : σ → γ} {xs ys : List (Stmt σ)} {st : Stmt σ} {s : σ}
    (hxs : ∀ x ∈ xs, Total x ∧ Stmt.Keeps g x) (hst : ∀ c t, g t = g s → ∃ n u, st c t = .ok (n, u))
    (hys : ∀ y ∈ ys, Total y) (c : Nat) : ∃ ns t, batch (xs ++ st :: ys) c s = .ok (ns, t) := by
  obtain ⟨ns, s1, h1⟩ := batch_total (fun x hx => (hxs x hx).1) c s
  have hkept : g s1 = g s := batch_keeps (fun x hx => (hxs x hx).2) h1
  obtain ⟨n, s2, h2⟩ := hst (ns.getLast?.getD c) s1 hkept
  obtain ⟨ns', t, h3⟩ := batch_total hys n s2
  refine ⟨ns ++ n :: ns', t, ?_⟩
  rw [batch_append _ h1]
  simp only [batch, h2, h3, bind, Except.bind, Except.map]

namespace Stmt

variable [Row ρ] {T : TableRef σ ρ}

theorem update_runs {p : σ → ρ → Bool} {f : σ → ρ → ρ} {s : σ}
    (hclash : ∀ a ∈ (T.get s).rows, ∀ b ∈ (T.get s).rows, Row.clash a b = false →
      Row.clash (if p s a then f s a else a) (if p s b then f s b else b) = false)
    (hvalid : ∀ r ∈ (T.get s).rows, Row.valid (if p s r then f s r else r) = true) (c : Nat) :
    ∃ t, t.rows = (T.get s).rows.map (fun r => if p s r then f s r else r) ∧
      update T p f c s = .ok ((T.get s).count (p s), T.set s t) := by
  have hbuild : ((T.get s).rows.map fun r => if p s r then f s r else r).Pairwise (fun a b => Row.clash a b = false) ∧
      ∀ r ∈ (T.get s).rows.map fun r => if p s r then f s r else r, Row.valid r = true := by
    constructor
    · rw [pairwise_map]
      exact (T.get s).distinct.imp_of_mem fun {a b} ha hb h => hclash a ha b hb h
    · intro r hr
      obtain ⟨x, hx, rfl⟩ := mem_map.mp hr
      exact hvalid x hx
  refine ⟨⟨_, hbuild.1, hbuild.2⟩, rfl, ?_⟩
  simp only [update, build, dif_pos hbuild, bind, bind]
  rfl

theorem update_isTotal {p : σ → ρ → Bool} {f : σ → ρ → ρ}
    (hclash : ∀ s a b, Row.clash (if p s a then f s a else a) (if p s b then f s b else b) = Row.clash a b)
    (hvalid : ∀ s r, Row.valid (if p s r then f s r else r) = Row.valid r) : Total (update T p f) := by
  intro c s
  obtain ⟨t, -, h⟩ := update_total (T := T) (hclash s) (hvalid s) c
  exact ⟨_, _, h⟩

theorem admitted_distinct {rows new : List ρ} (h : rows.Pairwise fun a b => Row.clash a b = false) :
    (rows ++ admitted .doNothing rows new).Pairwise fun a b => Row.clash a b = false := by
  induction new generalizing rows with
  | nil =>
    rw [admitted, append_nil]
    exact h
  | cons r new ih =>
    unfold admitted
    split
    · exact ih h
    · rename_i hskip
      rw [append_cons]
      have hr : ∀ x ∈ rows, Row.clash x r = false := by
        intro x hx
        by_contra hclash
        exact hskip (any_eq_true.mpr ⟨x, hx, Bool.not_eq_false _ ▸ hclash⟩)
      refine ih (pairwise_append.mpr ⟨h, pairwise_singleton _ _, fun x hx y hy => ?_⟩)
      rw [mem_singleton.mp hy]
      exact hr x hx

theorem insert_isTotal {g : σ → List ρ} (hvalid : ∀ s, ∀ r ∈ g s, Row.valid r = true) :
    Total (insert T .doNothing g) := by
  intro c s
  have hbuild : ((T.get s).rows ++ admitted .doNothing (T.get s).rows (g s)).Pairwise
        (fun a b => Row.clash a b = false) ∧
      ∀ r ∈ (T.get s).rows ++ admitted .doNothing (T.get s).rows (g s), Row.valid r = true := by
    refine ⟨admitted_distinct (T.get s).distinct, fun r hr => ?_⟩
    rcases mem_append.mp hr with hr | hr
    · exact (T.get s).valid r hr
    · exact hvalid s r ((admitted_sublist _ _ _).mem hr)
  exact ⟨(admitted .doNothing (T.get s).rows (g s)).length, T.set s ⟨_, hbuild.1, hbuild.2⟩, by
    simp only [insert, build, dif_pos hbuild, bind, Except.bind]⟩

theorem insert_runs {g : σ → List ρ} {s : σ} (hnew : (g s).Pairwise fun a b => Row.clash a b = false)
    (hvalid : ∀ r ∈ g s, Row.valid r = true) (hfree : ∀ x ∈ (T.get s).rows, ∀ r ∈ g s, Row.clash x r = false) (c : Nat) :
    ∃ n t, insert T .abort g c s = .ok (n, t) := by
  have hbuild : ((T.get s).rows ++ g s).Pairwise (fun a b => Row.clash a b = false) ∧
      ∀ x ∈ (T.get s).rows ++ g s, Row.valid x = true := by
    refine ⟨pairwise_append.mpr ⟨(T.get s).distinct, hnew, hfree⟩, fun x hx => ?_⟩
    rcases mem_append.mp hx with hx | hx
    · exact (T.get s).valid x hx
    · exact hvalid x hx
  exact ⟨(g s).length, T.set s ⟨_, hbuild.1, hbuild.2⟩, by
    simp only [insert, admitted_abort, build, dif_pos hbuild, bind, Except.bind]⟩

theorem insert_none {g : σ → List ρ} (hg : ∀ s, g s = []) : Total (insert T .abort g) := by
  intro c s
  refine insert_runs ?_ ?_ ?_ c
  · rw [hg]
    exact List.Pairwise.nil
  · intro r hr
    rw [hg] at hr
    cases hr
  · intro x _ r hr
    rw [hg] at hr
    cases hr

/-- An INSERT of one row: it goes through exactly where the row is valid and clashes with none. -/
theorem insert_one {g : σ → List ρ} {s : σ} {r : ρ} (hg : g s = [r]) (c : Nat) :
    (∃ n t, insert T .abort g c s = .ok (n, t)) ↔
      Row.valid r = true ∧ ∀ x ∈ (T.get s).rows, Row.clash x r = false := by
  constructor
  · rintro ⟨n, t, h⟩
    obtain ⟨-, t, ht, -⟩ := insert_abort_ok h
    rw [hg] at ht
    exact ⟨t.valid r (by rw [ht]; exact mem_append_right _ (mem_singleton_self r)),
      fun x hx => distinct_append ht hx⟩
  · rintro ⟨hvalid, hfree⟩
    have hbuild : ((T.get s).rows ++ [r]).Pairwise (fun a b => Row.clash a b = false) ∧
        ∀ x ∈ (T.get s).rows ++ [r], Row.valid x = true := by
      constructor
      · refine pairwise_append.mpr ⟨(T.get s).distinct, pairwise_singleton _ _, fun x hx y hy => ?_⟩
        rw [mem_singleton.mp hy]
        exact hfree x hx
      · intro x hx
        rcases mem_append.mp hx with hx | hx
        · exact (T.get s).valid x hx
        · rw [mem_singleton.mp hx]
          exact hvalid
    exact ⟨1, T.set s ⟨_, hbuild.1, hbuild.2⟩, by
      simp only [insert, hg, admitted_abort, build, dif_pos hbuild, bind, Except.bind, length_singleton]⟩

theorem insert_skipping_one {g : σ → List ρ} {s t : σ} {r : ρ} {c n : Nat} (hg : g s = [r])
    (h : insert T .doNothing g c s = .ok (n, t)) : ∃ rows, t = T.set s rows ∧
      rows.rows = (T.get s).rows ++ if (T.get s).rows.any (fun x => Row.clash x r) then [] else [r] := by
  obtain ⟨-, rows, hrows, rfl⟩ := insert_ok h
  refine ⟨rows, rfl, hrows.trans ?_⟩
  rw [hg]
  rfl

theorem updateEach_runs {ρ : Type} [KeyedRow ρ] {T : TableRef σ ρ} {before after : ρ → ρ → List (Stmt σ)}
    {p : σ → ρ → Bool} {f : σ → ρ → ρ} {k : Nat} {q : ρ → Bool} {s : σ}
    (hp : ∀ r, p s r = (KeyedRow.key r == k && q r))
    (hrow : ∀ r, (T.get s).get? k = some r → q r = true → ∃ t, updateRow T before after r (f s r) s = .ok t)
    (c : Nat) : ∃ n t, updateEach T before after p f c s = .ok (n, t) := by
  have hrows : ∃ t, updateRows T before after (f s) ((T.get s).rows.filter (p s)) s = .ok t := by
    rw [show p s = fun r => KeyedRow.key r == k && q r from funext hp, filter_key]
    cases hget : ((T.get s).get? k).filter q with
    | none => exact ⟨s, rfl⟩
    | some r =>
      obtain ⟨hr, hq⟩ := Option.filter_eq_some_iff.mp hget
      obtain ⟨t, ht⟩ := hrow r hr hq
      refine ⟨t, ?_⟩
      simp only [Option.toList_some, updateRows, ht, bind, Except.bind]
  obtain ⟨t, ht⟩ := hrows
  exact ⟨_, t, by simp only [updateEach, ht, bind, Except.bind]; rfl⟩

theorem insertEach_one (after : ρ → List (Stmt σ)) {g : σ → List ρ} {s s1 t : σ} {r : ρ} {n : Nat} {ns : List Nat}
    (hg : g s = [r]) (h1 : insert T .abort (fun _ => [r]) 0 s = .ok (n, s1)) (h2 : batch (after r) 0 s1 = .ok (ns, t))
    (c : Nat) : insertEach T after g c s = .ok (1, t) := by
  simp only [insertEach, hg, insertRows, h1, h2, bind, Except.bind, length_singleton]

theorem updateEach_miss {ρ : Type} [KeyedRow ρ] {T : TableRef σ ρ} {before after : ρ → ρ → List (Stmt σ)}
    {p : σ → ρ → Bool} {f : σ → ρ → ρ} {c n : Nat} {s t : σ} (hp : ∀ r, p s r = false)
    (h : updateEach T before after p f c s = .ok (n, t)) : t = s := by
  have hnone : (T.get s).rows.filter (p s) = [] :=
    filter_eq_nil_iff.mpr fun r _ h => by
      rw [hp] at h
      cases h
  have hrows := (updateEach_ok h).2
  rw [hnone] at hrows
  exact (ok.inj hrows).symm

theorem updateEach_none {ρ : Type} [KeyedRow ρ] {T : TableRef σ ρ} {before after : ρ → ρ → List (Stmt σ)}
    {p : σ → ρ → Bool} {f : σ → ρ → ρ} (hp : ∀ s r, p s r = false) : Total (updateEach T before after p f) := by
  intro c s
  have hnone : (T.get s).rows.filter (p s) = [] :=
    filter_eq_nil_iff.mpr fun r _ h => by
      rw [hp] at h
      cases h
  exact ⟨(T.get s).rows.countP (p s), s, by simp only [updateEach, hnone, updateRows, bind, Except.bind]⟩

end Stmt

end Sql
