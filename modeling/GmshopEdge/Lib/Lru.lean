import Mathlib

/-!
# Least recently used

A store of values under keys that remembers when each was used last, and is limited in number and in size. A value that
is put in uses its key, and so does reading one that has not expired; where the store is over its limits the values that
were used the longest time ago leave, and no more of them than have to (`Store.Evicts`).
-/

open scoped BigOperators

namespace Lru

structure Cell (V : Type) where
  value : V
  used : Nat

structure Store (K V : Type) where
  keys : Finset K
  cell : K → Option (Cell V)
  mem_keys : ∀ k, k ∈ keys ↔ (cell k).isSome = true

structure Limits where
  entries : Nat
  bytes : Nat

variable {K V T : Type} [DecidableEq K]

namespace Store

def empty : Store K V := ⟨∅, fun _ => none, by simp⟩

def used (s : Store K V) (k : K) : Nat := (s.cell k).elim 0 (·.used)

def sizeOf (size : V → Nat) (s : Store K V) (k : K) : Nat := (s.cell k).elim 0 fun c => size c.value

def bytes (size : V → Nat) (s : Store K V) : Nat := ∑ k ∈ s.keys, s.sizeOf size k

def without (s : Store K V) (gone : Finset K) : Store K V where
  keys := s.keys \ gone
  cell k := if k ∈ gone then none else s.cell k
  mem_keys k := by
    rw [Finset.mem_sdiff, s.mem_keys]
    by_cases hk : k ∈ gone <;> simp [hk]

def set (s : Store K V) (k : K) (c : Cell V) : Store K V where
  keys := insert k s.keys
  cell x := if x = k then some c else s.cell x
  mem_keys x := by
    rw [Finset.mem_insert, s.mem_keys]
    by_cases hx : x = k <;> simp [hx]

def Fits (l : Limits) (size : V → Nat) (s : Store K V) : Prop := s.keys.card ≤ l.entries ∧ s.bytes size ≤ l.bytes

def olderThan (s : Store K V) (k : K) : Finset K := s.keys.filter fun x => s.used x < s.used k

/-- The keys whose values leave: the store fits without them, they were used before all others, and none of them can
stay when the older ones have left. -/
structure Evicts (l : Limits) (size : V → Nat) (s : Store K V) (gone : Finset K) : Prop where
  stored : gone ⊆ s.keys
  fits : (s.without gone).Fits l size
  oldest : ∀ e ∈ gone, ∀ k ∈ s.keys, k ∉ gone → s.used e < s.used k
  needed : ∀ e ∈ gone, ¬ (s.without (s.olderThan e)).Fits l size

variable {size : V → Nat} {l : Limits} {k : K} {gone gone' : Finset K}

omit [DecidableEq K] in
theorem Fits.mono {s t : Store K V} (hfits : s.Fits l size) (hkeys : t.keys ⊆ s.keys)
    (hsize : ∀ k ∈ t.keys, t.sizeOf size k ≤ s.sizeOf size k) : t.Fits l size :=
  ⟨(Finset.card_le_card hkeys).trans hfits.1,
    (Finset.sum_le_sum hsize).trans ((Finset.sum_le_sum_of_subset hkeys).trans hfits.2)⟩

variable {s : Store K V}

theorem sizeOf_without (hk : k ∉ gone) : (s.without gone).sizeOf size k = s.sizeOf size k := by
  show (if k ∈ gone then none else s.cell k).elim 0 _ = _
  rw [if_neg hk]
  rfl

theorem Fits.without (h : s.Fits l size) (gone : Finset K) : (s.without gone).Fits l size :=
  h.mono Finset.sdiff_subset fun _ hk => (sizeOf_without (Finset.mem_sdiff.mp hk).2).le

theorem Evicts.subset (h : s.Evicts l size gone) (h' : s.Evicts l size gone') : gone ⊆ gone' := by
  intro e he
  by_contra hnot
  -- the other set is all older than `e`, so that `e` could have stayed
  have holder : gone' ⊆ s.olderThan e := fun x hx =>
    Finset.mem_filter.mpr ⟨h'.stored hx, h'.oldest x hx e (h.stored he) hnot⟩
  refine h.needed e he (h'.fits.mono (Finset.sdiff_subset_sdiff (Finset.Subset.refl _) holder) fun k hk => ?_)
  have hk := (Finset.mem_sdiff.mp hk).2
  rw [sizeOf_without hk, sizeOf_without fun hin => hk (holder hin)]

theorem Evicts.unique (h : s.Evicts l size gone) (h' : s.Evicts l size gone') : gone = gone' :=
  Finset.Subset.antisymm (h.subset h') (h'.subset h)

theorem Evicts.keeps_newest {c : Cell V} (h : s.Evicts l size gone) (hk : s.cell k = some c)
    (hnewest : ∀ x ∈ s.keys, x ≠ k → s.used x < s.used k) (hentries : 1 ≤ l.entries)
    (hbytes : size c.value ≤ l.bytes) : k ∉ gone := by
  intro hgone
  have honly : (s.without (s.olderThan k)).keys = {k} := by
    refine Finset.ext fun x => ?_
    rw [Finset.mem_singleton]
    constructor
    · intro hx
      by_contra hne
      obtain ⟨hx, hnot⟩ := Finset.mem_sdiff.mp hx
      exact hnot (Finset.mem_filter.mpr ⟨hx, hnewest x hx hne⟩)
    · rintro rfl
      refine Finset.mem_sdiff.mpr ⟨h.stored hgone, fun hin => ?_⟩
      exact absurd (Finset.mem_filter.mp hin).2 (Nat.lt_irrefl _)
  refine h.needed k hgone ⟨by rw [honly, Finset.card_singleton]; exact hentries, ?_⟩
  rw [bytes, honly, Finset.sum_singleton]
  have hcell : (s.without (s.olderThan k)).cell k = some c := by
    show (if k ∈ s.olderThan k then none else s.cell k) = some c
    have hself : k ∉ s.olderThan k := fun hin => absurd (Finset.mem_filter.mp hin).2 (Nat.lt_irrefl _)
    rw [if_neg hself, hk]
  rw [sizeOf, hcell]
  exact hbytes

end Store

/-! ## Requests -/

inductive Request (K V : Type) where
  | get (k : K)
  | put (k : K) (v : V)
  | delete (k : K)

/-- What the store does on its request number `n`, and what it answers. -/
inductive Step (l : Limits) (size : V → Nat) (expired : V → Prop) (n : Nat) :
    Store K V → Request K V → Option V → Store K V → Prop
  | hit {s : Store K V} {k : K} {c : Cell V} (h : s.cell k = some c) (hlive : ¬ expired c.value) :
      Step l size expired n s (.get k) (some c.value) (s.set k ⟨c.value, n⟩)
  | expired {s : Store K V} {k : K} {c : Cell V} (h : s.cell k = some c) (hexpired : expired c.value) :
      Step l size expired n s (.get k) none (s.without {k})
  | miss {s : Store K V} {k : K} (h : s.cell k = none) : Step l size expired n s (.get k) none s
  | put {s : Store K V} {k : K} {v : V} {gone : Finset K} (hsize : size v ≤ l.bytes)
      (hgone : (s.set k ⟨v, n⟩).Evicts l size gone) :
      Step l size expired n s (.put k v) none ((s.set k ⟨v, n⟩).without gone)
  | tooLarge {s : Store K V} {k : K} {v : V} (hsize : l.bytes < size v) :
      Step l size expired n s (.put k v) none (s.without {k})
  | delete {s : Store K V} {k : K} : Step l size expired n s (.delete k) none (s.without {k})

/-- The requests so far with their times, and what they were answered. -/
inductive Run (l : Limits) (size : V → Nat) (expired : T → V → Prop) :
    List (T × Request K V) → List (Option V) → Store K V → Prop
  | start : Run l size expired [] [] .empty
  | next {requests : List (T × Request K V)} {replies : List (Option V)} {s t : Store K V} {now : T}
      {r : Request K V} {reply : Option V} (h : Run l size expired requests replies s)
      (hstep : Step l size (expired now) requests.length s r reply t) :
      Run l size expired (requests ++ [(now, r)]) (replies ++ [reply]) t

/-- The value that was put under the key last. -/
def lastPut (requests : List (T × Request K V)) (k : K) : Option V :=
  requests.foldl (fun last x => match x.2 with
    | .put k' v => if k' = k then some v else last
    | _ => last) none

theorem lastPut_append (requests : List (T × Request K V)) (now : T) (r : Request K V) (k : K) :
    lastPut (requests ++ [(now, r)]) k = match r with
      | .put k' v => if k' = k then some v else lastPut requests k
      | _ => lastPut requests k := by
  rw [lastPut, List.foldl_append]
  rfl

structure Sound (l : Limits) (size : V → Nat) (requests : List (T × Request K V)) (s : Store K V) : Prop where
  used : ∀ k ∈ s.keys, s.used k < requests.length
  last : ∀ k c, s.cell k = some c → lastPut requests k = some c.value
  fits : s.Fits l size

theorem Store.used_set (s : Store K V) (k x : K) (c : Cell V) :
    (s.set k c).used x = if x = k then c.used else s.used x := by
  show (if x = k then some c else s.cell x).elim 0 _ = _
  split <;> rfl

variable {s : Store K V}

theorem Store.cell_without {gone : Finset K} {k : K} {c : Cell V} (h : (s.without gone).cell k = some c) :
    k ∉ gone ∧ s.cell k = some c := by
  have h : (if k ∈ gone then none else s.cell k) = some c := h
  split at h
  · cases h
  · next hk => exact ⟨hk, h⟩

variable {now : T} {r : Request K V} {requests : List (T × Request K V)} {expired : T → V → Prop}

variable {l : Limits} {size : V → Nat}

theorem Sound.without (h : Sound l size requests s) (gone : Finset K)
    (hr : ∀ k ∉ gone, lastPut (requests ++ [(now, r)]) k = lastPut requests k) :
    Sound l size (requests ++ [(now, r)]) (s.without gone) where
  used k hk := by
    obtain ⟨hk, hnot⟩ := Finset.mem_sdiff.mp hk
    have hused : (s.without gone).used k = s.used k := by
      show (if k ∈ gone then none else s.cell k).elim 0 _ = _
      rw [if_neg hnot]
      rfl
    rw [hused, List.length_append]
    exact Nat.lt_add_right _ (h.used k hk)
  last k c hc := by
    obtain ⟨hnot, hc⟩ := Store.cell_without hc
    rw [hr k hnot]
    exact h.last k c hc
  fits := h.fits.without gone

theorem Step.sound {t : Store K V} {reply : Option V} (hs : Sound l size requests s)
    (h : Step l size (expired now) requests.length s r reply t) : Sound l size (requests ++ [(now, r)]) t := by
  have hlength : (requests ++ [(now, r)]).length = requests.length + 1 := by simp
  cases h with
  | @hit k c hc hlive =>
    have hkeys : (s.set k ⟨c.value, requests.length⟩).keys = s.keys :=
      Finset.insert_eq_of_mem ((s.mem_keys k).mpr (by rw [hc]; rfl))
    refine ⟨fun x hx => ?_, fun x c' hx => ?_, hs.fits.mono hkeys.subset fun x _ => ?_⟩
    · rw [Store.used_set, hlength]
      split
      · exact Nat.lt_succ_self _
      · exact Nat.lt_succ_of_lt (hs.used x (hkeys ▸ hx))
    · rw [lastPut_append]
      have hx : (if x = k then some ⟨c.value, requests.length⟩ else s.cell x) = some c' := hx
      split at hx
      · next hxk =>
        obtain rfl := Option.some.inj hx
        exact hxk ▸ hs.last k c hc
      · exact hs.last x c' hx
    · show (if x = k then some ⟨c.value, requests.length⟩ else s.cell x).elim 0 _ ≤ (s.cell x).elim 0 _
      split
      · next hxk =>
        rw [hxk, hc]
        exact Nat.le_refl _
      · exact Nat.le_refl _
  | expired hc hexpired => exact hs.without _ fun x _ => lastPut_append requests now _ x
  | miss hc =>
    refine ⟨fun x hx => ?_, fun x c hx => ?_, hs.fits⟩
    · rw [hlength]
      exact Nat.lt_succ_of_lt (hs.used x hx)
    · rw [lastPut_append]
      exact hs.last x c hx
  | @put k v gone hsize hgone =>
    refine ⟨fun x hx => ?_, fun x c hx => ?_, hgone.fits⟩
    · obtain ⟨hx, hnot⟩ := Finset.mem_sdiff.mp hx
      have hused : ((s.set k ⟨v, requests.length⟩).without gone).used x = (s.set k ⟨v, requests.length⟩).used x := by
        show (if x ∈ gone then none else _).elim 0 _ = _
        rw [if_neg hnot]
        rfl
      rw [hused, Store.used_set, hlength]
      split
      · exact Nat.lt_succ_self _
      · next hxk => exact Nat.lt_succ_of_lt (hs.used x ((Finset.mem_insert.mp hx).resolve_left hxk))
    · obtain ⟨-, hx⟩ := Store.cell_without hx
      rw [lastPut_append]
      have hx : (if x = k then some ⟨v, requests.length⟩ else s.cell x) = some c := hx
      by_cases hxk : x = k
      · rw [if_pos hxk] at hx
        obtain rfl := Option.some.inj hx
        exact if_pos hxk.symm
      · rw [if_neg hxk] at hx
        exact (if_neg (Ne.symm hxk)).trans (hs.last x c hx)
  | @tooLarge k v hsize =>
    refine hs.without _ fun x hx => (lastPut_append requests now _ x).trans (if_neg fun hk => hx ?_)
    exact Finset.mem_singleton.mpr hk.symm
  | delete => exact hs.without _ fun x _ => lastPut_append requests now _ x

theorem Run.sound {replies : List (Option V)} (h : Run l size expired requests replies s) :
    Sound l size requests s := by
  induction h with
  | start => exact ⟨fun k hk => absurd hk (Finset.notMem_empty k), nofun, Nat.zero_le _, Nat.zero_le _⟩
  | next _ hstep ih => exact hstep.sound ih

end Lru
