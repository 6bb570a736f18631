import GmshopEdge.Lib.Statement

/-!
# Accounts and their entries

An account table keeps a balance, an entry table says how the balances moved. The books are in order
(`Account.Books`) when the entries of every account, in the order they were stored, lead step by step
from nothing to its balance. `Account.Moves` relates two states between which the entries that were
added lead from each old balance to the new one.
-/

namespace Sql

open List

/-- From `a` to `b` by the entries in turn. -/
def Path {α ε : Type} (step : α → ε → α → Prop) : α → List ε → α → Prop
  | a, [], b => a = b
  | a, e :: es, b => ∃ c, step a e c ∧ Path step c es b

namespace Path

variable {α ε : Type} {step : α → ε → α → Prop}

theorem append {a b c : α} {xs ys : List ε} (h : Path step a xs b) (h' : Path step b ys c) :
    Path step a (xs ++ ys) c := by
  induction xs generalizing a with
  | nil =>
    subst h
    exact h'
  | cons x xs ih =>
    obtain ⟨d, hd, hrest⟩ := h
    exact ⟨d, hd, ih hrest⟩

theorem single {a b : α} {e : ε} (h : step a e b) : Path step a [e] b := ⟨b, h, rfl⟩

theorem sum {step : Int → ε → Int → Prop} {delta : ε → Int}
    (hstep : ∀ a e b, step a e b → b = a + delta e) {a b : Int} {es : List ε}
    (h : Path step a es b) : b = a + (es.map delta).sum := by
  induction es generalizing a with
  | nil =>
    subst h
    simp
  | cons e es ih =>
    obtain ⟨c, hc, hrest⟩ := h
    rw [ih hrest, hstep a e c hc, map_cons, sum_cons, Int.add_assoc]

end Path

/-- Where the balances are kept, and what moves them. -/
structure Account (σ ρ ε : Type) [KeyedRow ρ] [Row ε] where
  accounts : σ → Table ρ
  entries : σ → Table ε
  balance : ρ → Int
  owner : ε → Nat
  step : Int → ε → Int → Prop

namespace Account

variable {σ ρ ε : Type} [KeyedRow ρ] [Row ε] (A : Account σ ρ ε)

/-- The entries of one account, in the order they were stored. -/
def entriesOf (s : σ) (key : Nat) : List ε := (A.entries s).rows.filter fun e => A.owner e == key

/-- The entries of every account lead from nothing to its balance. -/
def Books (s : σ) : Prop :=
  ∀ r ∈ (A.accounts s).rows, Path A.step 0 (A.entriesOf s (KeyedRow.key r)) (A.balance r)

/-- The entries that were added lead from each balance to the one after. -/
def Moves (s t : σ) : Prop :=
  ∃ (f : ρ → ρ) (es : List ε), (A.accounts t).rows = (A.accounts s).rows.map f ∧
    (∀ r, KeyedRow.key (f r) = KeyedRow.key r) ∧ (A.entries t).rows = (A.entries s).rows ++ es ∧
    ∀ r ∈ (A.accounts s).rows,
      Path A.step (A.balance r) (es.filter fun e => A.owner e == KeyedRow.key r) (A.balance (f r))

variable {A}

theorem Moves.refl (s : σ) : A.Moves s s :=
  ⟨id, [], (map_id _).symm, fun _ => rfl, (append_nil _).symm, fun _ _ => rfl⟩

variable {s t : σ}

theorem Moves.trans {u : σ} (h : A.Moves s t) (h' : A.Moves t u) : A.Moves s u := by
  obtain ⟨f, es, hf, hkey, hes, hpath⟩ := h
  obtain ⟨g, ds, hg, hkey', hds, hpath'⟩ := h'
  refine ⟨g ∘ f, es ++ ds, ?_, fun r => (hkey' _).trans (hkey r), ?_, fun r hr => ?_⟩
  · rw [hg, hf, map_map]
  · rw [hds, hes, append_assoc]
  · rw [filter_append]
    refine (hpath r hr).append ?_
    rw [← hkey r]
    exact hpath' (f r) (hf ▸ mem_map_of_mem hr)

theorem Moves.still {f : ρ → ρ} (hf : (A.accounts t).rows = (A.accounts s).rows.map f)
    (hkey : ∀ r, KeyedRow.key (f r) = KeyedRow.key r) (hbal : ∀ r, A.balance (f r) = A.balance r)
    (he : (A.entries t).rows = (A.entries s).rows) : A.Moves s t :=
  ⟨f, [], hf, hkey, he.trans (append_nil _).symm, fun r _ => (hbal r).symm⟩

theorem Moves.of_eq (ha : A.accounts t = A.accounts s) (he : A.entries t = A.entries s) : A.Moves s t :=
  Moves.still (f := id) (by rw [ha, map_id]) (fun _ => rfl) (fun _ => rfl) (by rw [he])

theorem Moves.each {f : ρ → ρ} {g : ρ → List ε} (hf : (A.accounts t).rows = (A.accounts s).rows.map f)
    (hkey : ∀ r, KeyedRow.key (f r) = KeyedRow.key r)
    (he : (A.entries t).rows = (A.entries s).rows ++ (A.accounts s).rows.flatMap g)
    (hown : ∀ r, ∀ e ∈ g r, A.owner e = KeyedRow.key r)
    (hpath : ∀ r ∈ (A.accounts s).rows, Path A.step (A.balance r) (g r) (A.balance (f r))) : A.Moves s t := by
  refine ⟨f, _, hf, hkey, he, fun r hr => ?_⟩
  obtain ⟨xs, ys, hsplit, -⟩ := Table.split_key hr
  have hkeys := (A.accounts s).keys_pairwise
  rw [hsplit, pairwise_append, pairwise_cons] at hkeys
  obtain ⟨-, ⟨hys, -⟩, hxs⟩ := hkeys
  have hnone : ∀ zs : List ρ, (∀ z ∈ zs, KeyedRow.key z ≠ KeyedRow.key r) →
      (zs.flatMap g).filter (fun e => A.owner e == KeyedRow.key r) = [] := by
    intro zs hzs
    rw [filter_eq_nil_iff]
    intro e hmem
    obtain ⟨z, hz, hez⟩ := mem_flatMap.mp hmem
    rw [beq_iff_eq, hown z e hez]
    exact hzs z hz
  have hall : (g r).filter (fun e => A.owner e == KeyedRow.key r) = g r := by
    rw [filter_eq_self]
    intro e hmem
    rw [beq_iff_eq]
    exact hown r e hmem
  have hfilter : ((A.accounts s).rows.flatMap g).filter (fun e => A.owner e == KeyedRow.key r) = g r := by
    rw [hsplit, flatMap_append, flatMap_cons, filter_append, filter_append,
      hnone xs fun x hx => hxs x hx r mem_cons_self, hnone ys fun y hy => Ne.symm (hys y hy), hall,
      nil_append, append_nil]
  rw [hfilter]
  exact hpath r hr

theorem Books.step (h : A.Books s) (hm : A.Moves s t) : A.Books t := by
  obtain ⟨f, es, hf, hkey, hes, hpath⟩ := hm
  intro r' hr'
  rw [hf] at hr'
  obtain ⟨r, hr, rfl⟩ := mem_map.mp hr'
  unfold entriesOf
  rw [hes, hkey, filter_append]
  exact (h r hr).append (hpath r hr)

theorem Books.sum (h : A.Books s) {delta : ε → Int} (hstep : ∀ a e b, A.step a e b → b = a + delta e) {r : ρ}
    (hr : r ∈ (A.accounts s).rows) : A.balance r = ((A.entriesOf s (KeyedRow.key r)).map delta).sum := by
  rw [(h r hr).sum hstep, Int.zero_add]

end Account

end Sql
