import GmshopEdge.Lib.Statement

/-!
# Batches that leave no trace

A batch whose statements only ever make a weight grow leaves what it reads as it is exactly when each of its statements
does (`Grew.squeeze`, at the statement that `batch_at` cuts the batch at).
-/

namespace Sql

open List Stmt

/-- What is read stays as it is, or its weight grows. -/
def Grew {σ γ : Type} (g : σ → γ) (w : γ → Nat) (s t : σ) : Prop := g t = g s ∨ w (g s) < w (g t)

namespace Grew

variable {σ γ : Type} {g : σ → γ} {w : γ → Nat} {s t u v : σ}

theorem refl (s : σ) : Grew g w s s := .inl rfl

theorem le (h : Grew g w s t) : w (g s) ≤ w (g t) := by
  rcases h with h | h
  · rw [h]
  · exact h.le

theorem trans (h : Grew g w s t) (h' : Grew g w t u) : Grew g w s u := by
  rcases h with h | h
  · unfold Grew
    rw [← h]
    exact h'
  · exact .inr (h.trans_le h'.le)

theorem squeeze (h1 : Grew g w s u) (h2 : Grew g w u v) (h3 : Grew g w v t) (hsame : g t = g s) :
    g u = g s ∧ g v = g u := by
  have hle : w (g t) ≤ w (g s) := by rw [hsame]
  constructor
  · refine h1.resolve_right fun hlt => ?_
    exact absurd (hlt.trans_le (h2.le.trans h3.le)) hle.not_gt
  · refine h2.resolve_right fun hlt => ?_
    exact absurd (h1.le.trans_lt (hlt.trans_le h3.le)) hle.not_gt

end Grew

section Batch

variable {σ : Type}

theorem batch_at {R : σ → σ → Prop} (hrefl : ∀ s, R s s) (htrans : ∀ a b c, R a b → R b c → R a c)
    {sts : List (Stmt σ)} (hsts : ∀ st ∈ sts, Within R st) {st : Stmt σ} (hst : st ∈ sts) {c : Nat} {s t : σ}
    {ns : List Nat} (hb : batch sts c s = .ok (ns, t)) : ∃ k u n v, R s u ∧ st k u = .ok (n, v) ∧ R v t := by
  obtain ⟨xs, ys, rfl⟩ := append_of_mem hst
  obtain ⟨_, u, _, hxs, hrest, -⟩ := batch_append_ok hb
  obtain ⟨n, v, _, hhere, hys, -⟩ := batch_cons_ok hrest
  refine ⟨_, u, n, v, ?_, hhere, ?_⟩
  · exact batch_within hrefl htrans (fun x hx => hsts x (mem_append_left _ hx)) hxs
  · exact batch_within hrefl htrans (fun x hx => hsts x (mem_append_right _ (mem_cons_of_mem _ hx))) hys

/-- An UPDATE that changes every row it finds leaves the table as it is exactly when it finds none. -/
theorem update_same_iff {ρ : Type} [Row ρ] {T : TableRef σ ρ} {p : σ → ρ → Bool} {f : σ → ρ → ρ} {c n : Nat} {s t : σ}
    (h : update T p f c s = .ok (n, t)) (hf : ∀ r ∈ (T.get s).rows, p s r = true → f s r ≠ r) :
    T.get t = T.get s ↔ ∀ r ∈ (T.get s).rows, p s r = false := by
  constructor
  · intro hsame r hr
    obtain ⟨-, t', ht, rfl⟩ := update_ok h
    rw [T.get_set] at hsame
    rw [hsame] at ht
    have hfix : (fun r => if p s r then f s r else r) r = r := 
      map_inj_left.mp (ht.symm.trans (map_id _).symm) r hr
    dsimp only at hfix
    by_contra hp
    rw [if_pos (Bool.not_eq_false _ ▸ hp)] at hfix
    exact hf r hr (Bool.not_eq_false _ ▸ hp) hfix
  · intro hmiss
    rw [update_miss h hmiss, T.get_set]

theorem countP_lt_map {α : Type} {p : α → Bool} {f : α → α} {xs : List α} (hmono : ∀ x ∈ xs, p x = true → p (f x) = true)
    {y : α} (hy : y ∈ xs) (hbefore : p y = false) (hafter : p (f y) = true) : xs.countP p < (xs.map f).countP p := by
  obtain ⟨ls, rs, rfl⟩ := append_of_mem hy
  have hl : ls.countP p ≤ ls.countP (p ∘ f) :=
    countP_mono_left fun x hx => hmono x (mem_append_left _ hx)
  have hr : rs.countP p ≤ rs.countP (p ∘ f) :=
    countP_mono_left fun x hx => hmono x (mem_append_right _ (mem_cons_of_mem _ hx))
  rw [countP_map, countP_append, countP_append, countP_cons, countP_cons, hbefore,
    Function.comp_apply, hafter, if_neg Bool.false_ne_true, if_pos rfl]
  omega

end Batch

end Sql
