import Mathlib

/-!
# Records

An object of a dynamically typed language: named values in the order of their insertion, each name once.
Setting a name that is there keeps its place.

    (r.set k v).get k = some v  (r.set k v).get k' = r.get k'  for k' ≠ k
-/

structure Record (α β : Type) where
  entries : List (α × β)
  nodup : (entries.map Prod.fst).Nodup
  deriving DecidableEq

namespace Record

open List Prod

variable {α β γ : Type} [DecidableEq α]

/-- The value of a name in place of the one before, or at the end. -/
def setEntry : List (α × β) → α → β → List (α × β)
  | [], k, v => [(k, v)]
  | (k', v') :: es, k, v => if k' = k then (k, v) :: es else (k', v') :: setEntry es k v

theorem mem_names_setEntry {es : List (α × β)} {k a : α} {v : β} :
    a ∈ (setEntry es k v).map fst ↔ a ∈ es.map fst ∨ a = k := by
  induction es with
  | nil => simp [setEntry]
  | cons e es ih =>
    obtain ⟨k', v'⟩ := e
    rw [setEntry]
    by_cases hk : k' = k
    · subst hk
      simp only [if_true, map_cons, mem_cons]
      tauto
    · simp only [if_neg hk, map_cons, mem_cons, ih]
      tauto

theorem nodup_setEntry {es : List (α × β)} (h : (es.map fst).Nodup) (k : α) (v : β) :
    ((setEntry es k v).map fst).Nodup := by
  induction es with
  | nil => simp [setEntry]
  | cons e es ih =>
    obtain ⟨k', v'⟩ := e
    rw [map_cons, nodup_cons] at h
    rw [setEntry]
    by_cases hk : k' = k
    · subst hk
      simpa using h
    · rw [if_neg hk, map_cons, nodup_cons, mem_names_setEntry]
      refine ⟨?_, ih h.2⟩
      rintro (hmem | heq)
      · exact h.1 hmem
      · exact hk heq

def empty : Record α β := ⟨[], List.nodup_nil⟩

def get (r : Record α β) (k : α) : Option β := r.entries.lookup k

def set (r : Record α β) (k : α) (v : β) : Record α β := ⟨setEntry r.entries k v, nodup_setEntry r.nodup k v⟩

def erase (r : Record α β) (k : α) : Record α β where
  entries := r.entries.filter fun e => decide (e.1 ≠ k)
  nodup := r.nodup.sublist (List.Sublist.map _ List.filter_sublist)

def names (r : Record α β) : List α := r.entries.map Prod.fst

def values (r : Record α β) : List β := r.entries.map Prod.snd

/-- The record an assignment after the other makes. -/
def ofEntries (es : List (α × β)) : Record α β := es.foldl (fun r e => r.set e.1 e.2) empty

/-- The values a function keeps, under their names. -/
def filterMap (f : β → Option γ) (r : Record α β) : Record α γ where
  entries := r.entries.filterMap fun e => (f e.2).map (e.1, ·)
  nodup := by
    refine r.nodup.sublist ?_
    induction r.entries with
    | nil => exact List.Sublist.slnil
    | cons e es ih =>
      rw [List.filterMap_cons]
      cases f e.2 with
      | none => exact ih.trans (List.sublist_cons_self ..)
      | some v => exact ih.cons_cons e.1

def map (f : β → γ) (r : Record α β) : Record α γ where
  entries := r.entries.map fun e => (e.1, f e.2)
  nodup := by
    rw [List.map_map]
    exact r.nodup

omit [DecidableEq α] in
theorem ext {r r' : Record α β} (h : r.entries = r'.entries) : r = r' := by
  cases r
  cases r'
  simpa using h

theorem get_eq_some_iff {r : Record α β} {k : α} {v : β} : r.get k = some v ↔ (k, v) ∈ r.entries := by
  obtain ⟨es, hnodup⟩ := r
  show es.lookup k = some v ↔ (k, v) ∈ es
  induction es with
  | nil => simp
  | cons e es ih =>
    obtain ⟨k', v'⟩ := e
    rw [map_cons, nodup_cons] at hnodup
    rw [lookup_cons]
    by_cases hk : k = k'
    · subst hk
      have hfresh : (k, v) ∉ es := fun hmem => hnodup.1 (mem_map.mpr ⟨_, hmem, rfl⟩)
      simp [hfresh, eq_comm]
    · simp [beq_false_of_ne hk, ih hnodup.2, hk]

theorem get_set_self (r : Record α β) (k : α) (v : β) : (r.set k v).get k = some v := by
  show (setEntry r.entries k v).lookup k = some v
  induction r.entries with
  | nil => simp [setEntry]
  | cons e es ih =>
    obtain ⟨k', v'⟩ := e
    rw [setEntry]
    by_cases hk : k' = k
    · simp [hk]
    · rw [if_neg hk, lookup_cons, beq_false_of_ne (Ne.symm hk)]
      exact ih

theorem get_set_ne (r : Record α β) {k k' : α} (h : k' ≠ k) (v : β) : (r.set k v).get k' = r.get k' := by
  show (setEntry r.entries k v).lookup k' = r.entries.lookup k'
  induction r.entries with
  | nil => simp [setEntry, h]
  | cons e es ih =>
    obtain ⟨k₀, v₀⟩ := e
    rw [setEntry]
    by_cases hk : k₀ = k
    · subst hk
      simp [lookup_cons, beq_false_of_ne h]
    · rw [if_neg hk, lookup_cons, lookup_cons, ih]

theorem mem_names_iff {r : Record α β} {k : α} : k ∈ r.names ↔ ∃ v, r.get k = some v := by
  rw [names, mem_map]
  constructor
  · rintro ⟨⟨k', v⟩, hmem, rfl⟩
    exact ⟨v, (get_eq_some_iff).mpr hmem⟩
  · rintro ⟨v, hv⟩
    exact ⟨(k, v), (get_eq_some_iff).mp hv, rfl⟩

theorem setEntry_fresh {es : List (α × β)} {k : α} (h : k ∉ es.map fst) (v : β) :
    setEntry es k v = es ++ [(k, v)] := by
  induction es with
  | nil => rfl
  | cons e es ih =>
    rw [map_cons, mem_cons, not_or] at h
    rw [setEntry, if_neg (Ne.symm h.1), ih h.2, cons_append]

section

variable (r : Record α β)
include r

theorem not_mem_erase (k : α) : k ∉ (r.erase k).entries.map fst := by
  intro h
  obtain ⟨e, he, hk⟩ := mem_map.mp h
  exact of_decide_eq_true (mem_filter.mp he).2 hk

theorem entries_set_erase (k : α) (v : β) : ((r.erase k).set k v).entries = (r.erase k).entries ++ [(k, v)] :=
  setEntry_fresh (r.not_mem_erase k) v

theorem get_erase_self (k : α) : (r.erase k).get k = none := by
  refine Option.eq_none_iff_forall_ne_some.mpr fun v hv => r.not_mem_erase k ?_
  exact mem_map_of_mem (f := fst) ((get_eq_some_iff).mp hv)

theorem get_erase_ne {k k' : α} (h : k' ≠ k) : (r.erase k).get k' = r.get k' := by
  refine Option.ext fun v => ?_
  rw [get_eq_some_iff, get_eq_some_iff]
  simp [erase, h]

end

theorem erase_fresh {r : Record α β} {k : α} (h : r.get k = none) : r.erase k = r := by
  refine ext (filter_eq_self.mpr fun e he => decide_eq_true ?_)
  rintro rfl
  rw [(get_eq_some_iff).mpr he] at h
  cases h

theorem split_entries {r : Record α β} {k : α} {v : β} (h : r.get k = some v) :
    ∃ front back, r.entries = front ++ (k, v) :: back ∧ (r.erase k).entries = front ++ back := by
  obtain ⟨front, back, hsplit⟩ := append_of_mem ((get_eq_some_iff).mp h)
  have hnodup := r.nodup
  rw [hsplit, map_append, map_cons, nodup_middle, nodup_cons, mem_append, not_or] at hnodup
  have hkept : ∀ es : List (α × β), k ∉ es.map fst → es.filter (fun e => decide (e.1 ≠ k)) = es := by
    intro es hk
    refine filter_eq_self.mpr fun e he => decide_eq_true fun hek => hk ?_
    exact hek ▸ mem_map_of_mem (f := fst) he
  refine ⟨front, back, hsplit, ?_⟩
  show r.entries.filter _ = _
  rw [hsplit, filter_append, filter_cons_of_neg (by simp), hkept _ hnodup.1.1, hkept _ hnodup.1.2]

theorem erase_head {r : Record α β} {k : α} {v : β} {es : List (α × β)} (h : r.entries = (k, v) :: es) :
    (r.erase k).entries = es := by
  have hnodup := r.nodup
  rw [h, map_cons, nodup_cons] at hnodup
  show r.entries.filter _ = es
  rw [h, filter_cons_of_neg (by simp)]
  refine filter_eq_self.mpr fun e he => decide_eq_true ?_
  intro hk
  have hin : e.1 ∈ es.map fst := mem_map_of_mem he
  exact hnodup.1 (hk ▸ hin)

theorem ofEntries_entries (r : Record α β) : ofEntries r.entries = r := by
  have hall : ∀ (es : List (α × β)) (r₀ r : Record α β), r.entries = r₀.entries ++ es →
      es.foldl (fun r e => r.set e.1 e.2) r₀ = r := by
    intro es
    induction es with
    | nil =>
      intro r₀ r h
      exact ext (by simpa using h.symm)
    | cons e es ih =>
      intro r₀ r h
      refine ih _ r ?_
      have hnodup := r.nodup
      rw [h, map_append, map_cons, nodup_middle, nodup_cons, mem_append, not_or] at hnodup
      show r.entries = setEntry r₀.entries e.1 e.2 ++ es
      rw [setEntry_fresh hnodup.1.1, h, append_assoc, singleton_append]
  exact hall r.entries empty r rfl

theorem get_filterMap (f : β → Option γ) (r : Record α β) (k : α) : (r.filterMap f).get k = (r.get k).bind f := by
  refine Option.ext fun v => ?_
  rw [get_eq_some_iff, Option.bind_eq_some_iff]
  simp only [filterMap, mem_filterMap, Option.map_eq_some_iff, Prod.mk.injEq]
  constructor
  · rintro ⟨e, hmem, w, hw, rfl, rfl⟩
    exact ⟨e.2, get_eq_some_iff.mpr hmem, hw⟩
  · rintro ⟨b, hb, hv⟩
    exact ⟨(k, b), get_eq_some_iff.mp hb, v, hv, rfl, rfl⟩

omit [DecidableEq α] in
theorem filterMap_map {f : γ → Option β} {g : β → γ} (h : ∀ b, f (g b) = some b) (r : Record α β) :
    (r.map g).filterMap f = r := by
  refine ext ?_
  show (r.entries.map fun e => (e.1, g e.2)).filterMap _ = r.entries
  rw [List.filterMap_map]
  conv_rhs => rw [← List.filterMap_some (l := r.entries)]
  simp [h]

end Record
