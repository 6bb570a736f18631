import Mathlib

/-!
# Lists

Mapping with errors and grouping by a key.

    the groups together are a permutation of the list  (groups_perm)
-/

namespace Lists

open List

variable {α : Type}

theorem mapM_ok_iff {β ε : Type} {f : α → Except ε β} {xs : List α} {ys : List β} :
    xs.mapM f = .ok ys ↔ List.Forall₂ (fun x y => f x = .ok y) xs ys := by
  induction xs generalizing ys with
  | nil =>
    rw [mapM_nil, forall₂_nil_left_iff]
    constructor
    · intro h
      exact (Except.ok.inj h).symm
    · rintro rfl
      rfl
  | cons x xs ih =>
    rw [mapM_cons, forall₂_cons_left_iff]
    cases hx : f x with
    | error e => simp [Bind.bind, Except.bind]
    | ok y =>
      cases hxs : xs.mapM f with
      | error e =>
        simp only [Bind.bind, Except.bind, reduceCtorEq, false_iff]
        rintro ⟨y', ys', -, hys', -⟩
        rw [ih.mpr hys'] at hxs
        cases hxs
      | ok ys' =>
        simp only [Bind.bind, Except.bind, Pure.pure, Except.pure, Except.ok.injEq]
        constructor
        · rintro rfl
          exact ⟨y, ys', rfl, ih.mp hxs, rfl⟩
        · rintro ⟨y'', ys'', rfl, hys'', rfl⟩
          rw [ih.mpr hys''] at hxs
          rw [Except.ok.inj hxs]

theorem mapM_mem {β ε : Type} {f : α → Except ε β} {xs : List α} {ys : List β} (h : xs.mapM f = .ok ys) {x : α}
    (hx : x ∈ xs) : ∃ y ∈ ys, f x = .ok y := by
  have hall := (mapM_ok_iff).mp h
  clear h
  induction hall with
  | nil => cases hx
  | cons hxy _ ih =>
    rcases mem_cons.mp hx with rfl | hx
    · exact ⟨_, mem_cons_self, hxy⟩
    · obtain ⟨y, hy, hfy⟩ := ih hx
      exact ⟨y, mem_cons_of_mem _ hy, hfy⟩

/-! ## Grouping -/

section Groups

variable {κ : Type} [DecidableEq κ] {key : α → κ}

theorem nodup_eraseDups (ks : List κ) : ks.eraseDups.Nodup := by
  induction hn : ks.length using Nat.strong_induction_on generalizing ks with
  | _ n ih =>
    cases ks with
    | nil => exact nodup_nil
    | cons k ks =>
      have hshort : (ks.filter fun b => !b == k).length < n := by
        rw [← hn]
        exact Nat.lt_succ_of_le (length_filter_le _ _)
      rw [eraseDups_cons, nodup_cons]
      refine ⟨fun hk => ?_, ih _ hshort _ rfl⟩
      have hne := (mem_filter.mp (mem_eraseDups.mp hk)).2
      rw [beq_self_eq_true] at hne
      cases hne

theorem flatMap_filter_perm {ks : List κ} (hks : ks.Nodup) {xs : List α} (hcover : ∀ x ∈ xs, key x ∈ ks) :
    (ks.flatMap fun k => xs.filter fun x => key x == k).Perm xs := by
  induction ks generalizing xs with
  | nil =>
    cases xs with
    | nil => exact List.Perm.refl _
    | cons x xs => cases hcover x mem_cons_self
  | cons k ks ih =>
    obtain ⟨hk, hks⟩ := nodup_cons.mp hks
    -- the groups of the other keys are those of the other elements
    have hrest : (ks.flatMap fun b => xs.filter fun x => key x == b) =
        ks.flatMap fun b => (xs.filter fun x => !(key x == k)).filter fun x => key x == b := by
      refine flatMap_congr fun b hb => ?_
      rw [filter_filter]
      refine filter_congr fun x _ => ?_
      by_cases hx : key x = b
      · have hne : b ≠ k := fun heq => hk (heq ▸ hb)
        rw [hx, beq_self_eq_true, beq_false_of_ne hne]
        rfl
      · rw [beq_false_of_ne hx]
        rfl
    rw [flatMap_cons, hrest]
    refine (List.Perm.append_left _ (ih hks fun x hx => ?_)).trans (filter_append_perm _ _)
    obtain ⟨hmem, hne⟩ := mem_filter.mp hx
    refine (mem_cons.mp (hcover x hmem)).resolve_left fun heq => ?_
    rw [heq, beq_self_eq_true] at hne
    cases hne

theorem groups_perm (key : α → κ) (xs : List α) :
    (((xs.map key).eraseDups).map fun k => xs.filter fun x => key x == k).flatten.Perm xs := by
  exact flatMap_filter_perm (nodup_eraseDups _) fun x hx => mem_eraseDups.mpr (mem_map_of_mem hx)

end Groups

end Lists
