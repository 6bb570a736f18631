import GmshopEdge.Lib.Interleave

/-!
# Calls over a part of the database

A `Part` is a component of a larger state. `Stmt.zoom` and `Prog.zoom` run a statement or a call of the component in
the larger state, which keeps everything else. A batch that is zoomed does to the component what it did alone:

    batch (sts.map zoom) s = batch sts (get s), put back  (batch_zoom)
-/

namespace Sql

open Prog

structure Part (σ δ : Type) where
  get : σ → δ
  set : σ → δ → σ
  get_set : ∀ s d, get (set s d) = d
  set_get : ∀ s, set s (get s) = s
  set_set : ∀ s d d', set (set s d) d' = set s d'

variable {σ δ ℓ ℓ' ε α β : Type}

/-! ## Statements -/

namespace Stmt

def back (P : Part σ δ) (s : σ) (r : Except Abort (α × δ)) : Except Abort (α × σ) :=
  match r with
  | .ok (a, d) => .ok (a, P.set s d)
  | .error e => .error e

def zoom (P : Part σ δ) (st : Stmt δ) : Stmt σ := fun c s => back P s (st c (P.get s))

theorem batch_zoom (P : Part σ δ) (sts : List (Stmt δ)) (c : Nat) (s : σ) :
    batch (sts.map (zoom P)) c s = back P s (batch sts c (P.get s)) := by
  induction sts generalizing c s with
  | nil => simp only [List.map_nil, batch_nil, back, P.set_get]
  | cons st sts ih =>
    unfold batch
    show (zoom P st c s >>= _) = _
    unfold zoom
    cases hst : st c (P.get s) with
    | error e => rfl
    | ok r =>
      obtain ⟨n, d⟩ := r
      show (batch (sts.map (zoom P)) n (P.set s d) >>= _) = back P s (batch sts n d >>= _)
      rw [ih, P.get_set]
      cases batch sts n d with
      | error e => rfl
      | ok r' =>
        show Except.ok _ = Except.ok _
        rw [P.set_set]

theorem batch_zoom_ok {P : Part σ δ} {sts : List (Stmt δ)} {c : Nat} {s t : σ} {ns : List Nat}
    (h : batch (sts.map (zoom P)) c s = .ok (ns, t)) : ∃ d, batch sts c (P.get s) = .ok (ns, d) ∧ t = P.set s d := by
  rw [batch_zoom] at h
  cases hb : batch sts c (P.get s) with
  | error e =>
    rw [hb] at h
    cases h
  | ok r =>
    rw [hb] at h
    obtain ⟨ns', d⟩ := r
    obtain ⟨rfl, rfl⟩ := Prod.mk.inj (Except.ok.inj h)
    exact ⟨d, rfl, rfl⟩

end Stmt

/-! ## Calls -/

namespace Prog

/-- The call of the component; `g` names its sites. -/
def zoom (P : Part σ δ) (g : ℓ → ℓ') : Prog δ ℓ ε α → Prog σ ℓ' ε α
  | .done a => .done a
  | .fail e => .fail e
  | .act l γ f k => .act (l.map g) γ (fun s => ((f (P.get s)).1, P.set s (f (P.get s)).2)) fun c => (k c).zoom P g

variable {P : Part σ δ} {g : ℓ → ℓ'}

theorem zoom_bind (p : Prog δ ℓ ε α) (k : α → Prog δ ℓ ε β) :
    (p >>= k).zoom P g = p.zoom P g >>= fun a => (k a).zoom P g := by
  induction p with
  | done a => rfl
  | fail e => rfl
  | act l γ f j ih => exact congrArg (act _ γ _) (funext fun c => ih c)

theorem zoom_query (f : δ → α) : (query f : Prog δ ℓ ε α).zoom P g = query fun s => f (P.get s) := by
  show act none α _ _ = act none α _ _
  simp only [P.set_get]
  rfl

theorem Reads.zoom {Q : α → Prop} {p : Prog δ ℓ ε α} (h : Reads Q p) : Reads Q (p.zoom P g) := by
  induction p with
  | done a => exact h
  | fail e => trivial
  | act l γ f k ih =>
    obtain ⟨rfl, hread⟩ := h
    refine ⟨rfl, fun s => ⟨?_, ih _ (hread _).2⟩⟩
    show P.set s (f (P.get s)).2 = s
    rw [(hread _).1, P.set_get]

end Prog

end Sql
