import Mathlib

/-!
# The largest remainder method

`total` units are shared in proportion to weights. Each weight gets the integer part of its share, and the units
that are left go one each to the largest remainders.

    sum of the shares = total   share of w ≤ w
-/

namespace Apportion

open List

variable {α : Type}

/-- The integer part of the share of a weight. -/
def floorShare (total sum weight : Nat) : Nat := total * weight / sum

def remainder (total sum weight : Nat) : Nat := total * weight % sum

def spare (total sum : Nat) (ws : List Nat) : Nat := total - (ws.map (floorShare total sum)).sum

def handOut (give : α → α) : Nat → List α → List α
  | 0, xs => xs
  | _ + 1, [] => []
  | n + 1, x :: xs => give x :: handOut give n xs

/-! ## Integer parts and remainders -/

theorem floors_add_remainders (total sum : Nat) (ws : List Nat) :
    sum * (ws.map (floorShare total sum)).sum + (ws.map (remainder total sum)).sum = total * ws.sum := by
  induction ws with
  | nil => simp
  | cons w ws ih =>
    have hw : sum * floorShare total sum w + remainder total sum w = total * w := Nat.div_add_mod _ _
    simp only [map_cons, sum_cons, Nat.mul_add]
    omega

variable {ws : List Nat} {k n sum total weight : Nat} {β : Type}

theorem floors_le (total : Nat) (hpos : 0 < ws.sum) : (ws.map (floorShare total ws.sum)).sum ≤ total := by
  have h := floors_add_remainders total ws.sum ws
  refine Nat.le_of_mul_le_mul_left (c := ws.sum) ?_ hpos
  rw [Nat.mul_comm ws.sum total]
  omega

theorem sum_mul_spare : ws.sum * spare total ws.sum ws = (ws.map (remainder total ws.sum)).sum := by
  have h := floors_add_remainders total ws.sum ws
  rw [spare, Nat.mul_sub, Nat.mul_comm ws.sum total]
  omega

theorem remainders_le (total : Nat) (hpos : 0 < sum) (ws : List Nat) :
    (ws.map (remainder total sum)).sum ≤ sum * ws.countP (0 < remainder total sum ·) := by
  induction ws with
  | nil => simp
  | cons w ws ih =>
    have hlt : remainder total sum w < sum := Nat.mod_lt _ hpos
    rw [map_cons, sum_cons]
    by_cases hw : 0 < remainder total sum w
    · rw [countP_cons_of_pos (by simpa using hw), Nat.mul_add, Nat.mul_one]
      omega
    · rw [countP_cons_of_neg (by simpa using hw)]
      omega

theorem spare_le_positive (total : Nat) (hpos : 0 < ws.sum) :
    spare total ws.sum ws ≤ ws.countP (0 < remainder total ws.sum ·) := by
  refine Nat.le_of_mul_le_mul_left (c := ws.sum) ?_ hpos
  rw [sum_mul_spare]
  exact remainders_le total hpos ws

theorem floorShare_lt (htotal : total ≤ sum) (h : 0 < remainder total sum weight) :
    floorShare total sum weight < weight := by
  have hdiv : sum * floorShare total sum weight + remainder total sum weight = total * weight := Nat.div_add_mod _ _
  have hle : total * weight ≤ sum * weight := Nat.mul_le_mul_right _ htotal
  refine Nat.lt_of_mul_lt_mul_left (a := sum) ?_
  omega

theorem floorShare_le (htotal : total ≤ sum) : floorShare total sum weight ≤ weight := by
  by_cases h : 0 < remainder total sum weight
  · exact Nat.le_of_lt (floorShare_lt htotal h)
  · have hdiv : sum * floorShare total sum weight + remainder total sum weight = total * weight := Nat.div_add_mod _ _
    have hle : total * weight ≤ sum * weight := Nat.mul_le_mul_right _ htotal
    rcases Nat.eq_zero_or_pos sum with rfl | hpos
    · simp [floorShare]
    · refine Nat.le_of_mul_le_mul_left (c := sum) ?_ hpos
      omega

/-! ## Handing out -/

section Sorting

variable {before : α → α → Prop} [DecidableRel before] {r : α → Nat}

section

variable (hle : ∀ a b, before a b → r b ≤ r a) (hgt : ∀ a b, ¬ before a b → r a ≤ r b)
include hle hgt

theorem orderedInsert_desc (a : α) {xs : List α} (h : xs.Pairwise fun x y => r y ≤ r x) :
    (xs.orderedInsert before a).Pairwise fun x y => r y ≤ r x := by
  induction xs with
  | nil => simp
  | cons x xs ih =>
    obtain ⟨hx, hxs⟩ := pairwise_cons.mp h
    rw [orderedInsert]
    split
    · rename_i hb
      refine pairwise_cons.mpr ⟨fun y hy => ?_, h⟩
      rcases mem_cons.mp hy with rfl | hy
      · exact hle _ _ hb
      · exact Nat.le_trans (hx y hy) (hle _ _ hb)
    · rename_i hb
      refine pairwise_cons.mpr ⟨fun y hy => ?_, ih hxs⟩
      rcases (mem_orderedInsert before).mp hy with rfl | hy
      · exact hgt _ _ hb
      · exact hx y hy

theorem insertionSort_desc (xs : List α) : (xs.insertionSort before).Pairwise fun x y => r y ≤ r x := by
  induction xs with
  | nil => exact .nil
  | cons x xs ih => exact orderedInsert_desc hle hgt x ih

end

end Sorting

variable {xs : List α}

theorem take_positive {r : α → Nat} (h : xs.Pairwise fun x y => r y ≤ r x) (hk : k ≤ xs.countP (0 < r ·)) :
    ∀ x ∈ xs.take k, 0 < r x := by
  induction xs generalizing k with
  | nil => simp
  | cons x xs ih =>
    obtain ⟨hx, hxs⟩ := pairwise_cons.mp h
    cases k with
    | zero => simp
    | succ k =>
      have hpos : 0 < r x := by
        by_contra hzero
        have hnone : xs.countP (0 < r ·) = 0 := by
          refine countP_eq_zero.mpr fun y hy => ?_
          have := hx y hy
          simp only [decide_eq_true_eq]
          omega
        rw [countP_cons_of_neg (by simpa using hzero), hnone] at hk
        omega
      rw [countP_cons_of_pos (by simpa using hpos)] at hk
      intro y hy
      rcases mem_cons.mp (by rwa [take_succ_cons] at hy) with rfl | hy
      · exact hpos
      · exact ih hxs (by omega) y hy

variable {give : α → α}

theorem mem_handOut {y : α} (h : y ∈ handOut give n xs) : y ∈ xs ∨ ∃ x ∈ xs.take n, y = give x := by
  induction xs generalizing n with
  | nil =>
    cases n <;> cases h
  | cons x xs ih =>
    cases n with
    | zero => exact Or.inl h
    | succ n =>
      rcases mem_cons.mp h with rfl | h
      · exact Or.inr ⟨x, by simp, rfl⟩
      · rcases ih h with h | ⟨z, hz, rfl⟩
        · exact Or.inl (mem_cons_of_mem _ h)
        · exact Or.inr ⟨z, by rw [take_succ_cons]; exact mem_cons_of_mem _ hz, rfl⟩

theorem map_handOut {g : α → β} (hg : ∀ x, g (give x) = g x) (n : Nat) (xs : List α) :
    (handOut give n xs).map g = xs.map g := by
  induction xs generalizing n with
  | nil => cases n <;> rfl
  | cons x xs ih =>
    cases n with
    | zero => rfl
    | succ n => rw [handOut, map_cons, map_cons, hg, ih]

theorem sum_handOut {M : Type} [AddCommMonoidWithOne M] {f : α → M} (hf : ∀ x, f (give x) = f x + 1)
    (hn : n ≤ xs.length) : ((handOut give n xs).map f).sum = (xs.map f).sum + n := by
  induction xs generalizing n with
  | nil =>
    obtain rfl : n = 0 := Nat.le_zero.mp hn
    simp [handOut]
  | cons x xs ih =>
    cases n with
    | zero => simp [handOut]
    | succ n =>
      have hsum := ih (n := n) (by simpa using hn)
      rw [handOut, map_cons, map_cons, sum_cons, sum_cons, hf, hsum, Nat.cast_succ]
      abel

theorem sum_bonus (f : α → Nat) (p : α → Bool) (xs : List α) :
    (xs.map fun x => if p x then f x + 1 else f x).sum = (xs.map f).sum + xs.countP p := by
  induction xs with
  | nil => rfl
  | cons x xs ih =>
    rw [map_cons, sum_cons, ih, map_cons, sum_cons, countP_cons]
    split <;> omega

theorem countP_take [BEq β] [LawfulBEq β] {key : α → β} (h : (xs.map key).Nodup) (hk : k ≤ xs.length) :
    xs.countP (fun x => ((xs.take k).map key).contains (key x)) = k := by
  have hsplit : ((xs.take k).map key ++ (xs.drop k).map key).Nodup := by
    rw [← map_append, take_append_drop]
    exact h
  obtain ⟨-, -, hdisjoint⟩ := nodup_append.mp hsplit
  have hfirst : (xs.take k).countP (fun x => ((xs.take k).map key).contains (key x)) = (xs.take k).length :=
    countP_eq_length.mpr fun x hx => contains_iff_mem.mpr (mem_map_of_mem hx)
  have hlast : (xs.drop k).countP (fun x => ((xs.take k).map key).contains (key x)) = 0 := by
    refine countP_eq_zero.mpr fun x hx hmem => ?_
    exact hdisjoint _ (contains_iff_mem.mp hmem) _ (mem_map_of_mem hx) rfl
  calc xs.countP (fun x => ((xs.take k).map key).contains (key x))
      = (xs.take k ++ xs.drop k).countP (fun x => ((xs.take k).map key).contains (key x)) := by
        rw [take_append_drop]
    _ = k := by rw [countP_append, hfirst, hlast, length_take, Nat.min_eq_left hk, Nat.add_zero]

end Apportion
