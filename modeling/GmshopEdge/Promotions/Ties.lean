import GmshopEdge.Promotions.Pricing

/-!
# Ties between remainders

`pricePromotion` breaks ties between equal remainders by the ids of the lines. The ids matter exactly where the cents
that are left run out among lines with equal remainders (`CutClear`).
-/

namespace Gmshop

open List Apportion

/-- The first `k` of the remainders, from the largest on, end between different values. -/
def CutClear (k : Nat) (remainders : List Nat) : Prop :=
  ∀ x ∈ remainders, k ≤ remainders.countP (x < ·) ∨ remainders.countP (x ≤ ·) ≤ k

instance (k : Nat) (remainders : List Nat) : Decidable (CutClear k remainders) := by
  unfold CutClear
  infer_instance

/-! ## Descending lists -/

section Descending

variable {α : Type} {r : α → Nat} {xs : List α}

theorem filter_desc (h : xs.Pairwise fun a b => r b ≤ r a) (p : Nat → Bool) (hp : ∀ m n, m ≤ n → p m = true → p n = true) :
    xs.filter (fun a => p (r a)) = xs.take (xs.countP fun a => p (r a)) := by
  induction xs with
  | nil => rfl
  | cons x xs ih =>
    obtain ⟨hx, hxs⟩ := pairwise_cons.mp h
    cases hpx : p (r x) with
    | true =>
      rw [filter_cons, countP_cons, if_pos hpx, if_pos hpx, take_succ_cons, ih hxs]
    | false =>
      have hnone : ∀ y ∈ xs, ¬ p (r y) = true := fun y hy hpy => by
        rw [hp _ _ (hx y hy) hpy] at hpx
        cases hpx
      have hno : ¬ p (r x) = true := by simp [hpx]
      rw [filter_cons, countP_cons, if_neg hno, if_neg hno, filter_eq_nil_iff.mpr hnone,
        countP_eq_zero.mpr hnone, take_zero]

theorem mem_take_iff (h : xs.Pairwise fun a b => r b ≤ r a) {k : Nat} (hclear : CutClear k (xs.map r)) {x : α}
    (hx : x ∈ xs) : x ∈ xs.take k ↔ xs.countP (fun a => decide (r x ≤ r a)) ≤ k := by
  have habove := filter_desc h (fun n => decide (r x < n)) fun m n hmn hm => by
    simp only [decide_eq_true_eq] at hm ⊢
    omega
  have hatLeast := filter_desc h (fun n => decide (r x ≤ n)) fun m n hmn hm => by
    simp only [decide_eq_true_eq] at hm ⊢
    omega
  constructor
  · intro hmem
    have hcut := hclear (r x) (mem_map_of_mem hx)
    rw [countP_map, countP_map] at hcut
    refine hcut.resolve_left fun hle => ?_
    have hin : x ∈ xs.filter fun a => decide (r x < r a) := by
      rw [habove]
      exact (take_sublist_take_left hle).subset hmem
    have := (mem_filter.mp hin).2
    simp at this
  · intro hle
    have hin : x ∈ xs.filter fun a => decide (r x ≤ r a) := mem_filter.mpr ⟨hx, by simp⟩
    rw [hatLeast] at hin
    exact (take_sublist_take_left hle).subset hin

end Descending

/-! ## The rows that get a cent -/

section Rows

variable {collate : String → String → Ordering} {rows : List PromotionRow} {k : Nat}

variable (collate) in
theorem mem_favoured_iff (hplaces : (rows.map (·.place)).Nodup) (hclear : CutClear k (rows.map (·.remainder)))
    {row : PromotionRow} (hrow : row ∈ rows) :
    row.place ∈ favoured collate rows k ↔ rows.countP (fun x => decide (row.remainder ≤ x.remainder)) ≤ k := by
  have hperm := List.perm_insertionSort (PromotionRow.before collate) rows
  have hclear' : CutClear k ((rows.insertionSort (PromotionRow.before collate)).map (·.remainder)) := by
    intro x hx
    have h := hclear x ((hperm.map _).mem_iff.mp hx)
    rwa [← (hperm.map _).countP_eq, ← (hperm.map _).countP_eq] at h
  rw [← hperm.countP_eq, ← mem_take_iff (r := (·.remainder)) (rows_desc collate rows) hclear' (hperm.mem_iff.mpr hrow)]
  constructor
  · intro hmem
    obtain ⟨x, hx, hplace⟩ := List.mem_map.mp hmem
    have hin := hperm.mem_iff.mp ((List.take_sublist _ _).subset hx)
    obtain rfl := List.inj_on_of_nodup_map hplaces hin hrow hplace
    exact hx
  · exact fun hmem => List.mem_map_of_mem hmem

theorem before_total [Std.OrientedCmp collate] (a b : PromotionRow) :
    PromotionRow.before collate a b ∨ PromotionRow.before collate b a := by
  have hswap : collate b.id a.id = (collate a.id b.id).swap := Std.OrientedCmp.eq_swap
  unfold PromotionRow.before
  by_cases heq : a.remainder = b.remainder
  · rw [if_pos heq, if_pos heq.symm, hswap]
    cases collate a.id b.id <;> simp
  · rw [if_neg heq, if_neg (Ne.symm heq)]
    omega

theorem before_trans [Std.TransCmp collate] {a b c : PromotionRow} (h : PromotionRow.before collate a b)
    (h' : PromotionRow.before collate b c) : PromotionRow.before collate a c := by
  unfold PromotionRow.before at h h' ⊢
  by_cases hab : a.remainder = b.remainder
  · rw [if_pos hab] at h
    rw [hab]
    by_cases hbc : b.remainder = c.remainder
    · rw [if_pos hbc] at h' ⊢
      exact Ordering.ne_gt_iff_isLE.mpr
        (Std.TransCmp.isLE_trans (Ordering.ne_gt_iff_isLE.mp h) (Ordering.ne_gt_iff_isLE.mp h'))
    · rwa [if_neg hbc] at h' ⊢
  · rw [if_neg hab] at h
    by_cases hbc : b.remainder = c.remainder
    · rw [← hbc, if_neg hab]
      exact h
    · rw [if_neg hbc] at h'
      rw [if_neg (by omega)]
      omega

theorem pairwise_before (collate : String → String → Ordering) [Std.TransCmp collate] (rows : List PromotionRow) :
    (rows.insertionSort (PromotionRow.before collate)).Pairwise (PromotionRow.before collate) := by
  have : Std.Total (PromotionRow.before collate) := ⟨before_total⟩
  have : IsTrans PromotionRow (PromotionRow.before collate) := ⟨fun _ _ _ => before_trans⟩
  exact pairwise_insertionSort _ rows

theorem mem_favoured_first [Std.TransCmp collate] {row : PromotionRow} (hrow : row ∈ rows)
    (hcut : rows.countP (fun x => decide (row.remainder < x.remainder)) < k)
    (hfirst : ∀ x ∈ rows, x ≠ row → collate row.id x.id = .lt) : row.place ∈ favoured collate rows k := by
  have hperm := perm_insertionSort (PromotionRow.before collate) rows
  have hsorted := pairwise_before collate rows
  generalize hs : rows.insertionSort (PromotionRow.before collate) = sorted at hperm hsorted
  by_contra hnot
  have hnot : row ∉ sorted.take k := fun hmem => hnot (by
    rw [favoured, hs]
    exact mem_map_of_mem hmem)
  have hdrop : row ∈ sorted.drop k := by
    have hall := hperm.mem_iff.mpr hrow
    rw [← take_append_drop k sorted, mem_append] at hall
    exact hall.resolve_left hnot
  rw [← take_append_drop k sorted, pairwise_append] at hsorted
  -- whatever comes before the row has a larger remainder
  have habove : ∀ x ∈ sorted.take k, decide (row.remainder < x.remainder) = true := by
    intro x hx
    have hbefore := hsorted.2.2 x hx row hdrop
    have hne : x ≠ row := by
      rintro rfl
      exact hnot hx
    have hlt := hfirst x (hperm.mem_iff.mp ((take_sublist _ _).subset hx)) hne
    unfold PromotionRow.before at hbefore
    split at hbefore
    · exact absurd (Std.OrientedCmp.gt_of_lt hlt) hbefore
    · exact decide_eq_true hbefore
  have hcount : (sorted.take k).countP (fun x => decide (row.remainder < x.remainder)) = (sorted.take k).length :=
    countP_eq_length.mpr habove
  have hlength : k < sorted.length := by
    by_contra hle
    rw [drop_eq_nil_of_le (by omega)] at hdrop
    cases hdrop
  have hle := (take_sublist k sorted).countP_le (p := fun x => decide (row.remainder < x.remainder))
  rw [hcount, length_take, Nat.min_eq_left (Nat.le_of_lt hlength), hperm.countP_eq] at hle
  omega

end Rows

end Gmshop
