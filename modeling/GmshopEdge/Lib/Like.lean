import Mathlib

/-!
# LIKE

The pattern operator of SQL on the characters of a text: `%` stands for any characters, `_` for one, and
the rest for themselves up to a folding of the case.

    like fold p cs → like fold q ds → like fold (p ++ q) (cs ++ ds)  (like_append)

A text used as a pattern matches itself (`like_self`), and more than itself where it holds a wildcard.
-/

namespace Sql

open List

/-- An element of a pattern. -/
inductive Wild (α : Type) where
  | any
  | one
  | same (c : α)

variable {α : Type} [DecidableEq α]

def like (fold : α → α) : List (Wild α) → List α → Bool
  | [], cs => cs.isEmpty
  | .any :: ps, cs => cs.tails.any (like fold ps)
  | .one :: _, [] => false
  | .one :: ps, _ :: cs => like fold ps cs
  | .same _ :: _, [] => false
  | .same p :: ps, c :: cs => fold p == fold c && like fold ps cs

def Wild.pattern (percent underscore : α) (cs : List α) : List (Wild α) :=
  cs.map fun c => if c = percent then .any else if c = underscore then .one else .same c

variable {fold : α → α}

theorem like_any_iff {ps : List (Wild α)} {cs : List α} :
    like fold (.any :: ps) cs = true ↔ ∃ ds, ds <:+ cs ∧ like fold ps ds = true := by
  rw [like, any_eq_true]
  simp only [mem_tails]

theorem like_append {ps qs : List (Wild α)} {cs ds : List α} (hp : like fold ps cs = true)
    (hq : like fold qs ds = true) : like fold (ps ++ qs) (cs ++ ds) = true := by
  induction ps generalizing cs with
  | nil =>
    rw [like, List.isEmpty_iff] at hp
    rw [hp]
    exact hq
  | cons p ps ih =>
    cases p with
    | any =>
      obtain ⟨es, hes, hlike⟩ := (like_any_iff).mp hp
      obtain ⟨front, rfl⟩ := hes
      refine (like_any_iff).mpr ⟨es ++ ds, ?_, ih hlike⟩
      rw [List.append_assoc]
      exact List.suffix_append _ _
    | one =>
      cases cs with
      | nil => cases hp
      | cons c cs => exact ih hp
    | same p =>
      cases cs with
      | nil => cases hp
      | cons c cs =>
        rw [like, Bool.and_eq_true] at hp
        rw [List.cons_append, List.cons_append, like, Bool.and_eq_true]
        exact ⟨hp.1, ih hp.2⟩

theorem like_any (cs : List α) : like fold [.any] cs = true :=
  (like_any_iff).mpr ⟨[], nil_suffix, rfl⟩

theorem like_self (percent underscore : α) (cs : List α) :
    like fold (Wild.pattern percent underscore cs) cs = true := by
  induction cs with
  | nil => rfl
  | cons c cs ih =>
    have hone : like fold (Wild.pattern percent underscore [c]) [c] = true := by
      simp only [Wild.pattern, map_cons, map_nil]
      split
      · exact like_any _
      · split
        · rfl
        · simp [like]
    exact like_append hone ih

theorem like_prefix (percent underscore : α) (cs ds : List α) :
    like fold (Wild.pattern percent underscore (cs ++ [percent])) (cs ++ ds) = true := by
  have hany : Wild.pattern percent underscore [percent] = [.any] := by simp [Wild.pattern]
  rw [Wild.pattern, map_append]
  refine like_append (like_self percent underscore cs) ?_
  change like fold (Wild.pattern percent underscore [percent]) ds = true
  rw [hany]
  exact like_any ds

end Sql
