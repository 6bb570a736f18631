import Mathlib

/-!
# Tables with declared constraints

A table is a list of rows in insertion order together with the proof that its declared
constraints hold: no two rows clash on a primary key or a unique index, and every row passes its
CHECK. An invalid table cannot be built, so a statement that would produce one has to abort, and
a lookup by key needs no uniqueness hypothesis.

* `Table.build` is the only way to a new table: it checks the constraints and fails otherwise.
* `Table.update_sum` says how a sum over the rows moves when the row with a given key is rewritten,
  `Table.insert_sum` what an inserted row adds to it.
-/

namespace Sql

open List

/-- Why a statement aborts: a constraint of the table, or an explicit `RAISE(ABORT)` / failing
expression. -/
inductive Abort where
  | constraint
  | raise (message : String)
  deriving DecidableEq

/-- The declared constraints of a row type. `clash a b` means that `a` and `b` cannot both be
stored (PRIMARY KEY or UNIQUE), `valid` is the conjunction of the CHECKs. -/
class Row (ρ : Type) where
  clash : ρ → ρ → Bool
  valid : ρ → Bool := fun _ => true

/-- A row type whose primary key is read by other statements. -/
class KeyedRow (ρ : Type) extends Row ρ where
  key : ρ → Nat
  clash_of_key : ∀ a b, key a = key b → clash a b = true

/-- Rows in insertion order, with the constraints as fields. -/
structure Table (ρ : Type) [Row ρ] where
  rows : List ρ
  distinct : rows.Pairwise (fun a b => Row.clash a b = false)
  valid : ∀ r ∈ rows, Row.valid r = true

namespace Table

variable {ρ : Type} [Row ρ]

theorem ext_rows {t t' : Table ρ} (h : t.rows = t'.rows) : t = t' := by
  cases t; cases t'; simp_all

instance [DecidableEq ρ] : DecidableEq (Table ρ) := fun t t' =>
  decidable_of_iff (t.rows = t'.rows) ⟨ext_rows, fun h => h ▸ rfl⟩

def empty : Table ρ := ⟨[], List.Pairwise.nil, by simp⟩

/-- Store `rows` if they meet the constraints. -/
def build (rows : List ρ) : Except Abort (Table ρ) :=
  if h : rows.Pairwise (fun a b => Row.clash a b = false) ∧ ∀ r ∈ rows, Row.valid r = true then .ok ⟨rows, h.1, h.2⟩
  else .error .constraint

/-- A concrete table; its constraints are checked where it is written down. -/
def of (rows : List ρ) (h : rows.Pairwise (fun a b => Row.clash a b = false) ∧ ∀ r ∈ rows, Row.valid r = true :=
      by decide) : Table ρ :=
  ⟨rows, h.1, h.2⟩

theorem build_ok {rows : List ρ} {t : Table ρ} (h : build rows = .ok t) : t.rows = rows := by
  unfold build at h
  split at h
  · cases h; rfl
  · cases h

/-- The rows under a projection that keeps what the constraints speak of. -/
def through {ρ' : Type} [Row ρ'] (f : ρ → ρ') (hclash : ∀ a b, Row.clash (f a) (f b) = Row.clash a b)
    (hvalid : ∀ r, Row.valid (f r) = Row.valid r) (t : Table ρ) : Table ρ' where
  rows := t.rows.map f
  distinct := List.pairwise_map.mpr (t.distinct.imp fun {a b} h => (hclash a b).trans h)
  valid r hr := by
    obtain ⟨x, hx, rfl⟩ := List.mem_map.mp hr
    exact (hvalid x).trans (t.valid x hx)

/-! ## Lookup by key -/

section Key

variable {ρ : Type} [KeyedRow ρ]

def get? (t : Table ρ) (k : Nat) : Option ρ := t.rows.find? (fun r => KeyedRow.key r == k)

variable {k : Nat} {r : ρ} {t : Table ρ}

theorem get?_mem (h : t.get? k = some r) : r ∈ t.rows :=
  mem_of_find?_eq_some h

theorem get?_key (h : t.get? k = some r) : KeyedRow.key r = k := by
  have := find?_some h
  simpa using this

theorem get?_through {ρ' : Type} [KeyedRow ρ'] {f : ρ → ρ'} (hclash : ∀ a b, Row.clash (f a) (f b) = Row.clash a b)
    (hvalid : ∀ r, Row.valid (f r) = Row.valid r) (hkey : ∀ r, KeyedRow.key (f r) = KeyedRow.key r) (t : Table ρ)
    (k : Nat) : (t.through f hclash hvalid).get? k = (t.get? k).map f := by
  have hsame : ((fun r => KeyedRow.key r == k) ∘ f) = fun r => KeyedRow.key r == k := by
    funext r
    rw [Function.comp_apply, hkey]
  show (t.rows.map f).find? _ = _
  rw [find?_map, hsame]
  rfl

theorem keys_pairwise (t : Table ρ) : t.rows.Pairwise (fun a b => KeyedRow.key a ≠ KeyedRow.key b) := by
  refine t.distinct.imp ?_
  intro a b h hk
  rw [KeyedRow.clash_of_key a b hk] at h
  cases h

theorem eq_of_key {a b : ρ} (ha : a ∈ t.rows) (hb : b ∈ t.rows) (h : KeyedRow.key a = KeyedRow.key b) : a = b := by
  by_contra hne
  have : Std.Symm (fun a b : ρ => KeyedRow.key a ≠ KeyedRow.key b) := ⟨fun _ _ h => Ne.symm h⟩
  exact t.keys_pairwise.forall ha hb hne h

theorem mem_get? (h : r ∈ t.rows) : t.get? (KeyedRow.key r) = some r := by
  cases hg : t.get? (KeyedRow.key r) with
  | none =>
    have := find?_eq_none.mp hg r h
    simp at this
  | some r' =>
    rw [eq_of_key (get?_mem hg) h (get?_key hg)]

theorem get?_eq_some_iff : t.get? k = some r ↔ r ∈ t.rows ∧ KeyedRow.key r = k := by
  constructor
  · intro h
    exact ⟨get?_mem h, get?_key h⟩
  · rintro ⟨h, rfl⟩
    exact mem_get? h

theorem filter_key (t : Table ρ) (k : Nat) (p : ρ → Bool) :
    t.rows.filter (fun r => KeyedRow.key r == k && p r) = ((t.get? k).filter p).toList := by
  unfold get?
  have hk := t.keys_pairwise
  generalize t.rows = xs at hk ⊢
  induction xs with
  | nil => rfl
  | cons x xs ih =>
    rw [pairwise_cons] at hk
    by_cases hx : KeyedRow.key x = k
    · have hnone : xs.filter (fun r => KeyedRow.key r == k && p r) = [] := by
        rw [filter_eq_nil_iff]
        intro y hy
        have : KeyedRow.key y ≠ k := fun h => hk.1 y hy (hx.trans h.symm)
        simp [this]
      rw [filter_cons, hnone, find?_cons_of_pos (by simpa using hx)]
      cases hp : p x <;> simp [hx, hp, Option.filter]
    · rw [filter_cons_of_neg (by simp [hx]), find?_cons_of_neg (by simpa using hx)]
      exact ih hk.2

theorem split_key (hr : r ∈ t.rows) : ∃ xs ys, t.rows = xs ++ r :: ys ∧ ∀ f : ρ → ρ,
      (t.rows.map fun x => if KeyedRow.key x = KeyedRow.key r then f x else x) = xs ++ f r :: ys := by
  obtain ⟨xs, ys, hsplit⟩ := append_of_mem hr
  have hkeys := t.keys_pairwise
  rw [hsplit, pairwise_append, pairwise_cons] at hkeys
  obtain ⟨-, ⟨hys, -⟩, hxs⟩ := hkeys
  refine ⟨xs, ys, hsplit, fun f => ?_⟩
  have hleft : (xs.map fun x => if KeyedRow.key x = KeyedRow.key r then f x else x) = xs :=
    (map_congr_left fun x hx => if_neg (hxs x hx r mem_cons_self)).trans (map_id' xs)
  have hright : (ys.map fun x => if KeyedRow.key x = KeyedRow.key r then f x else x) = ys :=
    (map_congr_left fun x hx => if_neg (Ne.symm (hys x hx))).trans (map_id' ys)
  rw [hsplit, map_append, map_cons, hleft, hright, if_pos rfl]

variable {t' : Table ρ}

theorem get?_map {g : ρ → ρ} (h : t'.rows = t.rows.map g) (hg : ∀ r, KeyedRow.key (g r) = KeyedRow.key r)
    (k : Nat) : t'.get? k = (t.get? k).map g := by
  unfold get?
  rw [h, find?_map]
  congr 2
  funext r
  simp [hg]

theorem get?_append {xs : List ρ} (h : t'.rows = t.rows ++ xs) (hr : t.get? k = some r) : t'.get? k = some r := by
  unfold get? at *
  rw [h, find?_append, hr]
  rfl

theorem get?_append_free (h : t'.rows = t.rows ++ [r]) : t.get? (KeyedRow.key r) = none := by
  rw [Option.eq_none_iff_forall_not_mem]
  intro x hx
  have hkeys := t'.keys_pairwise
  rw [h, pairwise_append] at hkeys
  exact hkeys.2.2 x (get?_mem hx) r (mem_singleton_self r) (get?_key hx)

theorem get?_append_one (h : t'.rows = t.rows ++ [r]) (k : Nat) :
    t'.get? k = if k = KeyedRow.key r then some r else t.get? k := by
  by_cases hk : k = KeyedRow.key r
  · rw [if_pos hk, hk]
    exact mem_get? (by rw [h]; exact mem_append_right _ (mem_singleton_self r))
  · rw [if_neg hk]
    unfold get?
    rw [h, find?_append, find?_cons_of_neg (by simpa using Ne.symm hk), find?_nil, Option.or_none]

end Key

/-! ## Sums over the rows -/

/-- `SUM(w)` over the rows, the WHERE clause being part of `w`. -/
def sum (t : Table ρ) (w : ρ → Nat) : Nat := (t.rows.map w).sum

/-- `COUNT(*) WHERE p`. -/
def count (t : Table ρ) (p : ρ → Bool) : Nat := t.rows.countP p

/-- `EXISTS (SELECT 1 … WHERE p)`. -/
def exist (t : Table ρ) (p : ρ → Bool) : Bool := t.rows.any p

theorem exist_iff {t : Table ρ} {p : ρ → Bool} : t.exist p = true ↔ ∃ r ∈ t.rows, p r = true := by
  simp [exist]

theorem exist_false_iff {t : Table ρ} {p : ρ → Bool} : t.exist p = false ↔ ∀ r ∈ t.rows, p r = false := by
  simp [exist]

theorem count_eq_zero {t : Table ρ} {p : ρ → Bool} : t.count p = 0 ↔ ∀ r ∈ t.rows, p r = false := by
  simp [count, countP_eq_zero]

theorem eq_of_clash {t : Table ρ} {a b : ρ} (ha : a ∈ t.rows) (hb : b ∈ t.rows)
    (h : Row.clash a b = true) (h' : Row.clash b a = true) : a = b := by
  by_contra hne
  have hd : t.rows.Pairwise (fun a b => ¬(Row.clash a b = true ∧ Row.clash b a = true)) :=
    t.distinct.imp fun hab hc => by rw [hc.1] at hab; cases hab
  have : Std.Symm (fun a b : ρ => ¬(Row.clash a b = true ∧ Row.clash b a = true)) :=
    ⟨fun _ _ hab hba => hab hba.symm⟩
  exact hd.forall ha hb hne ⟨h, h'⟩

theorem count_key {ρ : Type} [KeyedRow ρ] (t : Table ρ) (k : Nat) (p : ρ → Bool) :
    t.count (fun r => KeyedRow.key r == k && p r) = ((t.get? k).filter p).toList.length := by
  unfold count
  rw [countP_eq_length_filter, filter_key]

theorem distinct_append {t t' : Table ρ} {x y : ρ} (h : t'.rows = t.rows ++ [x]) (hy : y ∈ t.rows) :
    Row.clash y x = false := by
  have hd := t'.distinct
  rw [h, pairwise_append] at hd
  exact hd.2.2 y hy x (by simp)

theorem sum_le_of_map {t t' : Table ρ} {g : ρ → ρ} {w : ρ → Nat} (h : t'.rows = t.rows.map g)
    (hw : ∀ r ∈ t.rows, w (g r) ≤ w r) : t'.sum w ≤ t.sum w := by
  unfold sum
  rw [h, map_map]
  exact sum_le_sum (fun r hr => hw r hr)

theorem sum_eq_of_map {t t' : Table ρ} {g : ρ → ρ} {w : ρ → Nat} (h : t'.rows = t.rows.map g)
    (hw : ∀ r ∈ t.rows, w (g r) = w r) : t'.sum w = t.sum w := by
  unfold sum
  rw [h, List.map_map]
  exact congrArg List.sum (List.map_congr_left hw)

/-- Rewriting one row `r` (the one with its key) moves the sum by what `r` counts before and after;
a rewrite that leaves `w` alone elsewhere is enough. -/
theorem sum_map_single {ρ : Type} [KeyedRow ρ] {t t' : Table ρ} {g : ρ → ρ} {w : ρ → Nat} {r : ρ}
    (h : t'.rows = t.rows.map g) (hr : r ∈ t.rows)
    (hw : ∀ x ∈ t.rows, KeyedRow.key x ≠ KeyedRow.key r → w (g x) = w x) :
    t'.sum w + w r = t.sum w + w (g r) := by
  have hk := t.keys_pairwise
  unfold sum
  rw [h, List.map_map]
  generalize t.rows = xs at hr hw hk
  induction xs with
  | nil => cases hr
  | cons x xs ih =>
    simp only [List.map_cons, List.sum_cons, Function.comp_apply]
    rw [List.pairwise_cons] at hk
    rcases List.mem_cons.mp hr with rfl | hr'
    · have heq : (xs.map (w ∘ g)).sum = (xs.map w).sum := by
        refine congrArg List.sum (List.map_congr_left fun y hy => ?_)
        exact hw y (List.mem_cons_of_mem _ hy) (Ne.symm (hk.1 y hy))
      omega
    · have hx : w (g x) = w x := hw x List.mem_cons_self (hk.1 r hr')
      have := ih hr' (fun y hy => hw y (List.mem_cons_of_mem _ hy)) hk.2
      omega

theorem sum_le {t : Table ρ} {w w' : ρ → Nat} (h : ∀ r ∈ t.rows, w r ≤ w' r) : t.sum w ≤ t.sum w' :=
  sum_le_sum h

theorem sum_map_ite {α : Type} (p : α → Bool) (f : α → Nat) (xs : List α) :
    (xs.map fun x => if p x then f x else 0).sum = ((xs.filter p).map f).sum := by
  induction xs with
  | nil => rfl
  | cons x xs ih =>
    rw [map_cons, sum_cons, ih, filter_cons]
    by_cases hp : p x = true
    · rw [if_pos hp, if_pos hp, map_cons, sum_cons]
    · rw [if_neg hp, if_neg hp, Nat.zero_add]

theorem sum_key {ρ : Type} [KeyedRow ρ] (t : Table ρ) (k : Nat) (w : ρ → Nat) :
    (t.sum fun r => if KeyedRow.key r == k then w r else 0) = ((t.get? k).map w).getD 0 := by
  have hkey := t.filter_key k fun _ => true
  simp only [Bool.and_true] at hkey
  unfold sum
  rw [sum_map_ite, hkey]
  cases t.get? k with
  | none => rfl
  | some r => exact Nat.add_zero (w r)

theorem sum_add (t : Table ρ) (w w' : ρ → Nat) : (t.sum fun r => w r + w' r) = t.sum w + t.sum w' := sum_map_add

theorem sum_append {t t' : Table ρ} {w : ρ → Nat} {xs : List ρ} (h : t'.rows = t.rows ++ xs) :
    t'.sum w = t.sum w + (xs.map w).sum := by
  unfold sum
  rw [h, List.map_append, List.sum_append]

theorem count_eq_sum (t : Table ρ) (p : ρ → Bool) : t.count p = t.sum fun r => if p r then 1 else 0 := by
  unfold count sum
  generalize t.rows = xs
  induction xs with
  | nil => rfl
  | cons x xs ih =>
    rw [countP_cons, ih, map_cons, sum_cons, Nat.add_comm]

theorem count_eq_of_map {t t' : Table ρ} {g : ρ → ρ} {p : ρ → Bool} (h : t'.rows = t.rows.map g)
    (hp : ∀ r ∈ t.rows, p (g r) = p r) : t'.count p = t.count p := by
  rw [count_eq_sum, count_eq_sum]
  exact sum_eq_of_map h fun r hr => by rw [hp r hr]

theorem count_le_of_map {t t' : Table ρ} {g : ρ → ρ} {p : ρ → Bool} (h : t'.rows = t.rows.map g)
    (hp : ∀ r ∈ t.rows, p (g r) = true → p r = true) : t'.count p ≤ t.count p := by
  rw [count_eq_sum, count_eq_sum]
  refine sum_le_of_map h fun r hr => ?_
  by_cases hg : p (g r) = true
  · rw [hp r hr hg, hg]
  · rw [if_neg hg]
    exact Nat.zero_le _

theorem count_map_single {ρ : Type} [KeyedRow ρ] {t t' : Table ρ} {g : ρ → ρ} {p : ρ → Bool} {r : ρ}
    (h : t'.rows = t.rows.map g) (hr : r ∈ t.rows)
    (hp : ∀ x ∈ t.rows, KeyedRow.key x ≠ KeyedRow.key r → p (g x) = p x) :
    t'.count p + (if p r then 1 else 0) = t.count p + (if p (g r) then 1 else 0) := by
  rw [count_eq_sum, count_eq_sum]
  exact sum_map_single h hr fun x hx hne => by rw [hp x hx hne]

theorem count_append {t t' : Table ρ} {p : ρ → Bool} {xs : List ρ} (h : t'.rows = t.rows ++ xs) :
    t'.count p = t.count p + xs.countP p := by
  unfold count
  rw [h, countP_append]

end Table

end Sql
