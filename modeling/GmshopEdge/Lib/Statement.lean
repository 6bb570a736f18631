import GmshopEdge.Lib.Table

/-!
# Statements and batches

A statement reads the whole database, rewrites one table and reports the number of rows it
changed; the next statement sees that number as `changes()`. A `batch` runs its statements in
order inside one transaction: the first abort rolls everything back.

Proofs about a batch peel it with `batch_cons_ok`, use `update_ok` / `insert_ok` on the statements
that matter, and discharge the rest with `Within`: a statement is `Within R` when each of its
successful runs relates the states by `R`, and a list of such statements is again within `R`.
-/

namespace Sql

open List Table Except

structure TableRef (σ ρ : Type) [Row ρ] where
  get : σ → Table ρ
  set : σ → Table ρ → σ
  get_set : ∀ s t, get (set s t) = t

/-- `changes()` of the statement before, the database, and what the statement makes of it. -/
abbrev Stmt (σ : Type) := Nat → σ → Except Abort (Nat × σ)

/-- What an INSERT does with a row that breaks a constraint. -/
inductive OnConflict where
  | abort
  | doNothing
  | orIgnore

namespace Stmt

variable {σ ρ : Type} [Row ρ]

/-- `UPDATE T SET f WHERE p`; subqueries read the database the statement starts from. -/
def update (T : TableRef σ ρ) (p : σ → ρ → Bool) (f : σ → ρ → ρ) : Stmt σ := fun _ s => do
  let t ← Table.build ((T.get s).rows.map fun r => if p s r then f s r else r)
  .ok ((T.get s).rows.countP (p s), T.set s t)

/-- Whether the policy skips a new row: `ON CONFLICT DO NOTHING` on a uniqueness clash,
`INSERT OR IGNORE` also on a failed CHECK. -/
def skips (c : OnConflict) (rows : List ρ) (r : ρ) : Bool :=
  match c with
  | .abort => false
  | .doNothing => rows.any (fun x => Row.clash x r)
  | .orIgnore => rows.any (fun x => Row.clash x r) || !Row.valid r

/-- The new rows that the policy lets in, each judged against the ones before it. -/
def admitted (c : OnConflict) : List ρ → List ρ → List ρ
  | _, [] => []
  | rows, r :: rs =>
    if skips c rows r then admitted c rows rs else r :: admitted c (rows ++ [r]) rs

/-- `INSERT INTO T SELECT …`: the selected rows are appended in order. -/
def insert (T : TableRef σ ρ) (c : OnConflict) (g : σ → List ρ) : Stmt σ := fun _ s => do
  let new := admitted c (T.get s).rows (g s)
  let t ← Table.build ((T.get s).rows ++ new)
  .ok (new.length, T.set s t)

/-- A SELECT whose only effect is to abort the transaction when `p` holds. -/
def abortWhen (p : Nat → σ → Bool) (message : String) : Stmt σ := fun c s =>
  if p c s then .error (.raise message) else .ok (c, s)

/-- A statement that mentions `changes()`. -/
def onChanges (g : Nat → Stmt σ) : Stmt σ := fun c s => g c c s

/-- `INSERT INTO T VALUES (…, (SELECT …), …)` with the subquery in a NOT NULL column: where it finds no
row the statement aborts. -/
def insertRequired (T : TableRef σ ρ) (g : σ → Option ρ) : Stmt σ := fun c s =>
  match g s with
  | none => .error .constraint
  | some r => insert T .abort (fun _ => [r]) c s

/-- `DELETE FROM T WHERE p`. -/
def delete (T : TableRef σ ρ) (p : σ → ρ → Bool) : Stmt σ := fun _ s => do
  let t ← Table.build ((T.get s).rows.filter fun r => !p s r)
  .ok ((T.get s).rows.countP (p s), T.set s t)

theorem update_ok {T : TableRef σ ρ} {p : σ → ρ → Bool} {f : σ → ρ → ρ} {c n : Nat} {s s' : σ}
    (h : update T p f c s = .ok (n, s')) :
    n = (T.get s).count (p s) ∧
      ∃ t, t.rows = (T.get s).rows.map (fun r => if p s r then f s r else r) ∧ s' = T.set s t := by
  unfold update at h
  cases hb : build ((T.get s).rows.map fun r => if p s r then f s r else r) with
  | error a => simp [hb, bind, Except.bind] at h
  | ok t =>
    simp only [hb, bind, Except.bind, Except.ok.injEq, Prod.mk.injEq] at h
    exact ⟨h.1.symm, t, build_ok hb, h.2.symm⟩

theorem delete_ok {T : TableRef σ ρ} {p : σ → ρ → Bool} {c n : Nat} {s s' : σ} (h : delete T p c s = .ok (n, s')) :
    n = (T.get s).count (p s) ∧ ∃ t, t.rows = (T.get s).rows.filter (fun r => !p s r) ∧ s' = T.set s t := by
  unfold delete at h
  cases hb : build ((T.get s).rows.filter fun r => !p s r) with
  | error a => simp [hb, bind, Except.bind] at h
  | ok t =>
    simp only [hb, bind, Except.bind, Except.ok.injEq, Prod.mk.injEq] at h
    exact ⟨h.1.symm, t, build_ok hb, h.2.symm⟩

theorem update_total {T : TableRef σ ρ} {p : σ → ρ → Bool} {f : σ → ρ → ρ} {s : σ}
    (hclash : ∀ a b, Row.clash (if p s a then f s a else a) (if p s b then f s b else b) = Row.clash a b)
    (hvalid : ∀ r, Row.valid (if p s r then f s r else r) = Row.valid r) (c : Nat) :
    ∃ t, t.rows = (T.get s).rows.map (fun r => if p s r then f s r else r) ∧
      update T p f c s = .ok ((T.get s).count (p s), T.set s t) := by
  have hbuild : ((T.get s).rows.map fun r => if p s r then f s r else r).Pairwise (fun a b => Row.clash a b = false) ∧
      ∀ r ∈ (T.get s).rows.map fun r => if p s r then f s r else r, Row.valid r = true := by
    constructor
    · rw [pairwise_map]
      exact (T.get s).distinct.imp fun {a b} h => (hclash a b).trans h
    · intro r hr
      obtain ⟨x, hx, rfl⟩ := mem_map.mp hr
      exact (hvalid x).trans ((T.get s).valid x hx)
  refine ⟨⟨_, hbuild.1, hbuild.2⟩, rfl, ?_⟩
  simp only [update, build, dif_pos hbuild, bind, bind]
  rfl

theorem update_miss {T : TableRef σ ρ} {p : σ → ρ → Bool} {f : σ → ρ → ρ} {c n : Nat} {s s' : σ}
    (h : update T p f c s = .ok (n, s')) (hp : ∀ r ∈ (T.get s).rows, p s r = false) :
    s' = T.set s (T.get s) := by
  obtain ⟨-, t, ht, rfl⟩ := update_ok h
  refine congrArg (T.set s) (ext_rows (ht.trans ?_))
  rw [map_congr_left (g := fun r => r) fun r hr => by rw [hp r hr]; rfl, map_id']

/-- An UPDATE of the row under a key, seen by its change count: the row is there and meets the
condition. -/
theorem update_key_hit {ρ : Type} [KeyedRow ρ] {T : TableRef σ ρ} {k : Nat} {p : σ → ρ → Bool}
    {f : σ → ρ → ρ} {c n : Nat} {s s' : σ}
    (h : update T (fun s r => KeyedRow.key r == k && p s r) f c s = .ok (n, s')) (hn : n ≠ 0) :
    n = 1 ∧ ∃ r t, (T.get s).get? k = some r ∧ p s r = true ∧
      t.rows = (T.get s).rows.map (fun x => if KeyedRow.key x = k then f s x else x) ∧
      s' = T.set s t := by
  obtain ⟨hcount, t, ht, rfl⟩ := update_ok h
  rw [count_key] at hcount
  cases hf : ((T.get s).get? k).filter (p s) with
  | none => simp [hf] at hcount; exact absurd hcount hn
  | some r =>
    obtain ⟨hr, hp⟩ := Option.filter_eq_some_iff.mp hf
    refine ⟨by simpa [hf] using hcount, r, t, hr, hp, ?_, rfl⟩
    rw [ht]
    refine map_congr_left fun x hx => ?_
    by_cases hk : KeyedRow.key x = k
    · have hxr : x = r := eq_of_key hx (get?_mem hr) (hk.trans (get?_key hr).symm)
      rw [if_pos hk, if_pos]
      rw [hxr, hp, Bool.and_true, beq_iff_eq]
      exact get?_key hr
    · rw [if_neg hk, if_neg]
      rw [Bool.and_eq_true, beq_iff_eq]
      exact fun h => hk h.1

/-- An UPDATE of at most the row under a key: no row meets the condition and nothing changes, or the
one row is rewritten. -/
theorem update_key_cases {ρ : Type} [KeyedRow ρ] {T : TableRef σ ρ} {k : Nat} {p : σ → ρ → Bool}
    {q : ρ → Bool} {f : σ → ρ → ρ} {c n : Nat} {s s' : σ}
    (hp : ∀ r, p s r = (KeyedRow.key r == k && q r)) (h : update T p f c s = .ok (n, s')) :
    (n = 0 ∧ (∀ r, (T.get s).get? k = some r → q r = false) ∧ s' = T.set s (T.get s)) ∨
      (n = 1 ∧ ∃ r t, (T.get s).get? k = some r ∧ q r = true ∧
        t.rows = (T.get s).rows.map (fun x => if KeyedRow.key x = k then f s x else x) ∧
        s' = T.set s t) := by
  have hcongr : update T p f c s = update T (fun _ r => KeyedRow.key r == k && q r) f c s := by
    unfold update
    rw [show p s = fun r => KeyedRow.key r == k && q r from funext hp]
  rw [hcongr] at h
  by_cases hn : n = 0
  · refine Or.inl ⟨hn, ?_, update_miss h ?_⟩
    · intro r hr
      by_contra hq
      have hcount := (update_ok h).1
      rw [count_key, hr, Option.filter_some_pos (by simpa using hq), hn] at hcount
      cases hcount
    · have hcount := (update_ok h).1
      rw [hn] at hcount
      exact count_eq_zero.mp hcount.symm
  · obtain ⟨h1, r, t, hr, hq, ht, hs⟩ := update_key_hit h hn
    exact Or.inr ⟨h1, r, t, hr, hq, ht, hs⟩

theorem admitted_sublist (c : OnConflict) (rows rs : List ρ) : (admitted c rows rs).Sublist rs := by
  induction rs generalizing rows with
  | nil => exact List.Sublist.slnil
  | cons r rs ih =>
    unfold admitted
    split
    · exact (ih rows).cons _
    · exact (ih _).cons_cons _

theorem admitted_abort (rows rs : List ρ) : admitted .abort rows rs = rs := by
  induction rs generalizing rows with
  | nil => rfl
  | cons r rs ih => simp [admitted, skips, ih]

theorem insert_ok {T : TableRef σ ρ} {p : OnConflict} {g : σ → List ρ} {c n : Nat} {s s' : σ}
    (h : insert T p g c s = .ok (n, s')) :
    n = (admitted p (T.get s).rows (g s)).length ∧
      ∃ t, t.rows = (T.get s).rows ++ admitted p (T.get s).rows (g s) ∧ s' = T.set s t := by
  unfold insert at h
  cases hb : build ((T.get s).rows ++ admitted p (T.get s).rows (g s)) with
  | error a => simp [hb, bind, Except.bind] at h
  | ok t =>
    simp only [hb, bind, Except.bind, Except.ok.injEq, Prod.mk.injEq] at h
    exact ⟨h.1.symm, t, build_ok hb, h.2.symm⟩

theorem insert_abort_ok {T : TableRef σ ρ} {g : σ → List ρ} {c n : Nat} {s s' : σ}
    (h : insert T .abort g c s = .ok (n, s')) :
    n = (g s).length ∧ ∃ t, t.rows = (T.get s).rows ++ g s ∧ s' = T.set s t := by
  have := insert_ok h
  rwa [admitted_abort] at this

theorem onChanges_ok {g : Nat → Stmt σ} {c n : Nat} {s s' : σ}
    (h : onChanges g c s = .ok (n, s')) : g c c s = .ok (n, s') := h

theorem insertRequired_ok {T : TableRef σ ρ} {g : σ → Option ρ} {c n : Nat} {s s' : σ}
    (h : insertRequired T g c s = .ok (n, s')) :
    ∃ r t, g s = some r ∧ t.rows = (T.get s).rows ++ [r] ∧ n = 1 ∧ s' = T.set s t := by
  unfold insertRequired at h
  cases hg : g s with
  | none => simp [hg] at h
  | some r =>
    rw [hg] at h
    obtain ⟨hn, t, ht, hs⟩ := insert_abort_ok h
    exact ⟨r, t, rfl, ht, hn, hs⟩

theorem abortWhen_ok {p : Nat → σ → Bool} {m : String} {c n : Nat} {s s' : σ}
    (h : abortWhen p m c s = .ok (n, s')) : p c s = false ∧ n = c ∧ s' = s := by
  unfold abortWhen at h
  split at h
  · cases h
  · next hp =>
    simp only [ok.injEq, Prod.mk.injEq] at h
    exact ⟨by simpa using hp, h.1.symm, h.2.symm⟩

/-! ## Statements within a relation -/

/-- Every successful run of the statement relates the states by `R`. -/
def Within (R : σ → σ → Prop) (st : Stmt σ) : Prop :=
  ∀ c s n s', st c s = .ok (n, s') → R s s'

/-- The statement leaves the component `g` of the database alone. -/
abbrev Keeps {γ : Type} (g : σ → γ) (st : Stmt σ) : Prop := Within (fun s s' => g s' = g s) st

section Frame

variable {γ : Type} {g : σ → γ} {T : TableRef σ ρ}

theorem Keeps.eq {st : Stmt σ} {c n : Nat} {s s' : σ} (h : Keeps g st) (hst : st c s = .ok (n, s')) : g s' = g s :=
  h c s n s' hst

theorem update_keeps {p : σ → ρ → Bool} {f : σ → ρ → ρ} (hT : ∀ s t, g (T.set s t) = g s) : Keeps g (update T p f) := by
  intro c s n s' h
  obtain ⟨-, t, -, rfl⟩ := update_ok h
  exact hT s t

theorem insert_keeps {p : OnConflict} {r : σ → List ρ} (hT : ∀ s t, g (T.set s t) = g s) : Keeps g (insert T p r) := by
  intro c s n s' h
  obtain ⟨-, t, -, rfl⟩ := insert_ok h
  exact hT s t

theorem insertRequired_keeps {r : σ → Option ρ} (hT : ∀ s t, g (T.set s t) = g s) : Keeps g (insertRequired T r) := by
  intro c s n s' h
  obtain ⟨-, t, -, -, -, rfl⟩ := insertRequired_ok h
  exact hT s t

theorem update_off {p : σ → ρ → Bool} {f : σ → ρ → ρ} (hT : (fun s t => g (T.set s t)) = fun s _ => g s) :
    Keeps g (update T p f) :=
  update_keeps (congrFun₂ hT)

theorem insert_off {p : OnConflict} {r : σ → List ρ} (hT : (fun s t => g (T.set s t)) = fun s _ => g s) :
    Keeps g (insert T p r) :=
  insert_keeps (congrFun₂ hT)

theorem insertRequired_off {r : σ → Option ρ} (hT : (fun s t => g (T.set s t)) = fun s _ => g s) :
    Keeps g (insertRequired T r) :=
  insertRequired_keeps (congrFun₂ hT)

theorem abortWhen_keeps {p : Nat → σ → Bool} {m : String} : Keeps g (abortWhen p m) := by
  intro c s n s' h
  obtain ⟨-, -, rfl⟩ := abortWhen_ok h
  rfl

end Frame

theorem onChanges_within {R : σ → σ → Prop} {g : Nat → Stmt σ} (h : ∀ c, Within R (g c)) : Within R (onChanges g) :=
  fun c s n s' hs => h c c s n s' hs

end Stmt

/-! ## What holds of each statement of a short list -/

section Each

variable {α : Type} {P : α → Prop} {a b c d e f : α}

section

variable (ha : P a) (hb : P b)
include ha hb

theorem each_two : ∀ x ∈ [a, b], P x :=
  forall_mem_cons.mpr ⟨ha, forall_mem_singleton.mpr hb⟩

theorem each_three (hc : P c) : ∀ x ∈ [a, b, c], P x :=
  forall_mem_cons.mpr ⟨ha, each_two hb hc⟩

theorem each_four (hc : P c) (hd : P d) : ∀ x ∈ [a, b, c, d], P x :=
  forall_mem_cons.mpr ⟨ha, each_three hb hc hd⟩

theorem each_five (hc : P c) (hd : P d) (he : P e) : ∀ x ∈ [a, b, c, d, e], P x :=
  forall_mem_cons.mpr ⟨ha, each_four hb hc hd he⟩

theorem each_six (hc : P c) (hd : P d) (he : P e) (hf : P f) : ∀ x ∈ [a, b, c, d, e, f], P x :=
  forall_mem_cons.mpr ⟨ha, each_five hb hc hd he hf⟩

end

theorem each_if {c : Prop} [Decidable c] {xs : List α} (h : c → ∀ x ∈ xs, P x) :
    ∀ x ∈ (if c then xs else []), P x := by
  split
  · next hc => exact h hc
  · exact forall_mem_nil P

theorem each_append {xs ys : List α} (hx : ∀ x ∈ xs, P x) (hy : ∀ x ∈ ys, P x) : ∀ x ∈ xs ++ ys, P x :=
  forall_mem_append.mpr ⟨hx, hy⟩

end Each

/-! ## Batches -/

section Batch

variable {σ : Type}

/-- The statements of a batch in order, each seeing the change count of the one before. -/
def batch : List (Stmt σ) → Nat → σ → Except Abort (List Nat × σ)
  | [], _, s => .ok ([], s)
  | st :: sts, c, s => do
    let (n, s1) ← st c s
    let (ns, s2) ← batch sts n s1
    .ok (n :: ns, s2)

@[simp] theorem batch_nil (c : Nat) (s : σ) : batch [] c s = .ok ([], s) := rfl

variable {c : Nat} {s s' : σ} {ns : List Nat} {sts : List (Stmt σ)}

theorem batch_cons_ok {st : Stmt σ} (h : batch (st :: sts) c s = .ok (ns, s')) :
    ∃ n s1 ns', st c s = .ok (n, s1) ∧ batch sts n s1 = .ok (ns', s') ∧ ns = n :: ns' := by
  unfold batch at h
  cases h1 : st c s with
  | error a => simp [h1, bind, Except.bind] at h
  | ok r =>
    obtain ⟨n, s1⟩ := r
    simp only [h1, bind, Except.bind] at h
    cases h2 : batch sts n s1 with
    | error a => simp [h2] at h
    | ok r2 =>
      obtain ⟨ns', s2⟩ := r2
      simp only [h2, Except.ok.injEq, Prod.mk.injEq] at h
      obtain ⟨rfl, rfl⟩ := h
      exact ⟨n, s1, ns', rfl, h2, rfl⟩

theorem batch_nil_ok (h : batch [] c s = .ok (ns, s')) : [] = ns ∧ s = s' := by
  simpa only [batch_nil, ok.injEq, Prod.mk.injEq] using h

theorem batch_single_ok {st : Stmt σ} (h : batch [st] c s = .ok (ns, s')) : ∃ n, st c s = .ok (n, s') ∧ ns = [n] := by
  obtain ⟨n, s1, ns', h1, h2, rfl⟩ := batch_cons_ok h
  obtain ⟨rfl, rfl⟩ := h2
  exact ⟨n, h1, rfl⟩

section Short

variable {st₁ st₂ st₃ st₄ st₅ : Stmt σ} {c : Nat} {s s' : σ} {ns : List Nat}

theorem batch_two_ok (h : batch [st₁, st₂] c s = .ok (ns, s')) :
    ∃ n₁ s₁ n₂ s₂, st₁ c s = .ok (n₁, s₁) ∧ st₂ n₁ s₁ = .ok (n₂, s₂) ∧ s₂ = s' := by
  obtain ⟨n₁, s₁, _, h₁, h, -⟩ := batch_cons_ok h
  obtain ⟨n₂, h₂, -⟩ := batch_single_ok h
  exact ⟨n₁, s₁, n₂, s', h₁, h₂, rfl⟩

theorem batch_three_ok (h : batch [st₁, st₂, st₃] c s = .ok (ns, s')) :
    ∃ n₁ s₁ n₂ s₂ n₃ s₃, st₁ c s = .ok (n₁, s₁) ∧ st₂ n₁ s₁ = .ok (n₂, s₂) ∧ st₃ n₂ s₂ = .ok (n₃, s₃) ∧ s₃ = s' := by
  obtain ⟨n₁, s₁, _, h₁, h, -⟩ := batch_cons_ok h
  obtain ⟨n₂, s₂, n₃, s₃, h₂, h₃, hs⟩ := batch_two_ok h
  exact ⟨n₁, s₁, n₂, s₂, n₃, s₃, h₁, h₂, h₃, hs⟩

theorem batch_four_ok (h : batch [st₁, st₂, st₃, st₄] c s = .ok (ns, s')) :
    ∃ n₁ s₁ n₂ s₂ n₃ s₃ n₄ s₄, st₁ c s = .ok (n₁, s₁) ∧ st₂ n₁ s₁ = .ok (n₂, s₂) ∧ st₃ n₂ s₂ = .ok (n₃, s₃) ∧
      st₄ n₃ s₃ = .ok (n₄, s₄) ∧ s₄ = s' := by
  obtain ⟨n₁, s₁, _, h₁, h, -⟩ := batch_cons_ok h
  obtain ⟨n₂, s₂, n₃, s₃, n₄, s₄, h₂, h₃, h₄, hs⟩ := batch_three_ok h
  exact ⟨n₁, s₁, n₂, s₂, n₃, s₃, n₄, s₄, h₁, h₂, h₃, h₄, hs⟩

theorem batch_five_ok (h : batch [st₁, st₂, st₃, st₄, st₅] c s = .ok (ns, s')) :
    ∃ n₁ s₁ n₂ s₂ n₃ s₃ n₄ s₄ n₅ s₅, st₁ c s = .ok (n₁, s₁) ∧ st₂ n₁ s₁ = .ok (n₂, s₂) ∧ st₃ n₂ s₂ = .ok (n₃, s₃) ∧
      st₄ n₃ s₃ = .ok (n₄, s₄) ∧ st₅ n₄ s₄ = .ok (n₅, s₅) ∧ s₅ = s' := by
  obtain ⟨n₁, s₁, _, h₁, h, -⟩ := batch_cons_ok h
  obtain ⟨n₂, s₂, n₃, s₃, n₄, s₄, n₅, s₅, h₂, h₃, h₄, h₅, hs⟩ := batch_four_ok h
  exact ⟨n₁, s₁, n₂, s₂, n₃, s₃, n₄, s₄, n₅, s₅, h₁, h₂, h₃, h₄, h₅, hs⟩

end Short

theorem batch_append_ok {xs ys : List (Stmt σ)} (h : batch (xs ++ ys) c s = .ok (ns, s')) :
    ∃ ns1 s1 ns2, batch xs c s = .ok (ns1, s1) ∧ batch ys (ns1.getLast?.getD c) s1 = .ok (ns2, s') ∧
      ns = ns1 ++ ns2 := by
  induction xs generalizing c s ns with
  | nil => exact ⟨[], s, ns, rfl, h, rfl⟩
  | cons st xs ih =>
    obtain ⟨n, s1, ns', h1, h2, rfl⟩ := batch_cons_ok h
    obtain ⟨ns1, s2, ns2, h3, h4, rfl⟩ := ih h2
    refine ⟨n :: ns1, s2, ns2, by simp [batch, h1, h3, bind, Except.bind], ?_, rfl⟩
    rw [getLast?_cons]
    exact h4

theorem batch_idle (hsts : ∀ st ∈ sts, ∀ c n u, st c s = .ok (n, u) → u = s) (h : batch sts c s = .ok (ns, s')) :
    s' = s := by
  induction sts generalizing c ns with
  | nil =>
    simp only [batch_nil, ok.injEq, Prod.mk.injEq] at h
    exact h.2.symm
  | cons st sts ih =>
    obtain ⟨n, s1, ns', h1, h2, -⟩ := batch_cons_ok h
    obtain rfl := hsts st mem_cons_self _ _ _ h1
    exact ih (fun x hx => hsts x (mem_cons_of_mem _ hx)) h2

theorem batch_within {R : σ → σ → Prop} (hrefl : ∀ s, R s s) (htrans : ∀ a b c, R a b → R b c → R a c)
    (hsts : ∀ st ∈ sts, Stmt.Within R st) (h : batch sts c s = .ok (ns, s')) : R s s' := by
  induction sts generalizing c s ns with
  | nil =>
    simp only [batch_nil, ok.injEq, Prod.mk.injEq] at h
    exact h.2 ▸ hrefl s
  | cons st sts ih =>
    obtain ⟨n, s1, ns', h1, h2, -⟩ := batch_cons_ok h
    exact htrans _ _ _ (hsts st mem_cons_self _ _ _ _ h1)
      (ih (fun x hx => hsts x (mem_cons_of_mem _ hx)) h2)

theorem batch_keeps {γ : Type} {g : σ → γ} (hsts : ∀ st ∈ sts, Stmt.Keeps g st)
    (h : batch sts c s = .ok (ns, s')) : g s' = g s :=
  batch_within (R := fun s s' => g s' = g s) (fun _ => rfl) (fun _ _ _ hab hbc => hbc.trans hab) hsts h

end Batch

/-! ## Row triggers -/

namespace Stmt

section Triggers

variable {σ ρ : Type} [KeyedRow ρ]

/-- One row of an UPDATE with row triggers: the BEFORE statements, the new row, the AFTER ones. -/
def updateRow (T : TableRef σ ρ) (before after : ρ → ρ → List (Stmt σ)) (old new : ρ) (s : σ) : Except Abort σ := do
  let (_, s) ← batch (before old new) 0 s
  let (_, s) ← update T (fun _ r => KeyedRow.key r == KeyedRow.key old) (fun _ _ => new) 0 s
  let (_, s) ← batch (after old new) 0 s
  .ok s

/-- The rows of an UPDATE one after the other. -/
def updateRows (T : TableRef σ ρ) (before after : ρ → ρ → List (Stmt σ)) (f : ρ → ρ) : List ρ → σ → Except Abort σ
  | [], s => .ok s
  | r :: rs, s => do
    let s ← updateRow T before after r (f r) s
    updateRows T before after f rs s

/-- `UPDATE T SET f WHERE p` on a table with row triggers. WHERE and SET are evaluated on the
state the statement starts from. -/
def updateEach (T : TableRef σ ρ) (before after : ρ → ρ → List (Stmt σ)) (p : σ → ρ → Bool)
    (f : σ → ρ → ρ) : Stmt σ := fun _ s => do
  let s' ← updateRows T before after (f s) ((T.get s).rows.filter (p s)) s
  .ok ((T.get s).rows.countP (p s), s')

variable {T : TableRef σ ρ} {before after : ρ → ρ → List (Stmt σ)}

variable {s s' : σ}

theorem updateRow_ok {old new : ρ} (h : updateRow T before after old new s = .ok s') :
    ∃ ns1 s1 n s2 ns2, batch (before old new) 0 s = .ok (ns1, s1) ∧
      update T (fun _ r => KeyedRow.key r == KeyedRow.key old) (fun _ _ => new) 0 s1 = .ok (n, s2) ∧
      batch (after old new) 0 s2 = .ok (ns2, s') := by
  unfold updateRow at h
  cases h1 : batch (before old new) 0 s with
  | error a => simp [h1, bind, Except.bind] at h
  | ok r1 =>
    simp only [h1, bind, Except.bind] at h
    cases h2 : update T (fun _ r => KeyedRow.key r == KeyedRow.key old) (fun _ _ => new) 0 r1.2 with
    | error a => simp [h2] at h
    | ok r2 =>
      simp only [h2] at h
      cases h3 : batch (after old new) 0 r2.2 with
      | error a => simp [h3] at h
      | ok r3 =>
        simp only [h3, Except.ok.injEq] at h
        subst h
        exact ⟨r1.1, r1.2, r2.1, r2.2, r3.1, rfl, h2, h3⟩

variable {c n : Nat} {p : σ → ρ → Bool}

theorem updateEach_ok {f : σ → ρ → ρ} (h : updateEach T before after p f c s = .ok (n, s')) :
    n = (T.get s).count (p s) ∧ updateRows T before after (f s) ((T.get s).rows.filter (p s)) s = .ok s' := by
  unfold updateEach at h
  cases h1 : updateRows T before after (f s) ((T.get s).rows.filter (p s)) s with
  | error a => simp [h1, bind, Except.bind] at h
  | ok r =>
    simp only [h1, bind, Except.bind, Except.ok.injEq, Prod.mk.injEq] at h
    exact ⟨h.1.symm, by rw [h.2]⟩

/-- An UPDATE with triggers of the row under a key: it misses, or it is the update of that row. -/
theorem updateEach_key {f : σ → ρ → ρ} {k : Nat} {q : ρ → Bool} (hp : ∀ r, p s r = (KeyedRow.key r == k && q r))
    (h : updateEach T before after p f c s = .ok (n, s')) :
    s' = s ∨ ∃ r, (T.get s).get? k = some r ∧ p s r = true ∧ updateRow T before after r (f s r) s = .ok s' := by
  have hrows := (updateEach_ok h).2
  rw [show p s = fun r => KeyedRow.key r == k && q r from funext hp, filter_key] at hrows
  cases hget : ((T.get s).get? k).filter q with
  | none =>
    rw [hget] at hrows
    simp only [Option.toList_none, updateRows, Except.ok.injEq] at hrows
    exact Or.inl hrows.symm
  | some r =>
    rw [hget] at hrows
    obtain ⟨hr, hq⟩ := Option.filter_eq_some_iff.mp hget
    refine Or.inr ⟨r, hr, ?_, ?_⟩
    · rw [hp, Bool.and_eq_true, beq_iff_eq]
      exact ⟨get?_key hr, hq⟩
    · simp only [Option.toList_some, updateRows] at hrows
      cases hrow : updateRow T before after r (f s r) s with
      | error a => simp [hrow, bind, Except.bind] at hrows
      | ok s1 =>
        simp only [hrow, bind, Except.bind, Except.ok.injEq] at hrows
        rw [hrows]

variable {f : ρ → ρ} {R : σ → σ → Prop} {rs : List ρ}

/-- An UPDATE with triggers whose rows, each with its triggers, stay within `R` stays within it. -/
theorem updateRows_each (hrefl : ∀ s, R s s) (htrans : ∀ a b c, R a b → R b c → R a c)
    (hrow : ∀ r ∈ rs, ∀ s s', updateRow T before after r (f r) s = .ok s' → R s s')
    (h : updateRows T before after f rs s = .ok s') : R s s' := by
  induction rs generalizing s with
  | nil =>
    simp only [updateRows, Except.ok.injEq] at h
    exact h ▸ hrefl s
  | cons r rs ih =>
    unfold updateRows at h
    cases h1 : updateRow T before after r (f r) s with
    | error a => simp [h1, bind, Except.bind] at h
    | ok s1 =>
      simp only [h1, bind, Except.bind] at h
      exact htrans _ _ _ (hrow r mem_cons_self s s1 h1) (ih (fun x hx => hrow x (mem_cons_of_mem _ hx)) h)

theorem updateRows_within (hrefl : ∀ s, R s s) (htrans : ∀ a b c, R a b → R b c → R a c)
    (hb : ∀ r ∈ rs, ∀ st ∈ before r (f r), Within R st)
    (hu : ∀ r ∈ rs, Within R (update T (fun _ x => KeyedRow.key x == KeyedRow.key r) (fun _ _ => f r)))
    (ha : ∀ r ∈ rs, ∀ st ∈ after r (f r), Within R st) (h : updateRows T before after f rs s = .ok s') : R s s' := by
  refine updateRows_each hrefl htrans (fun r hr s s' h1 => ?_) h
  obtain ⟨ns1, t1, n, t2, ns2, e1, e2, e3⟩ := updateRow_ok h1
  have r1 : R s t1 := batch_within hrefl htrans (hb r hr) e1
  have r2 : R t1 t2 := hu r hr _ _ _ _ e2
  have r3 : R t2 s' := batch_within hrefl htrans (ha r hr) e3
  exact htrans _ _ _ (htrans _ _ _ r1 r2) r3

theorem updateRows_stored (hrefl : ∀ s, R s s) (htrans : ∀ a b c, R a b → R b c → R a c)
    (hb : ∀ a b, ∀ st ∈ before a b, Keeps (fun s => (T.get s).rows) st)
    (ha : ∀ a b, ∀ st ∈ after a b, Keeps (fun s => (T.get s).rows) st)
    (hrs : rs.Pairwise (fun a b => KeyedRow.key a ≠ KeyedRow.key b))
    (hrow : ∀ r ∈ rs, ∀ s s', r ∈ (T.get s).rows → updateRow T before after r (f r) s = .ok s' → R s s')
    (hsub : ∀ r ∈ rs, r ∈ (T.get s).rows) (h : updateRows T before after f rs s = .ok s') : R s s' := by
  induction rs generalizing s with
  | nil =>
    simp only [updateRows, Except.ok.injEq] at h
    exact h ▸ hrefl s
  | cons r rs ih =>
    unfold updateRows at h
    cases h1 : updateRow T before after r (f r) s with
    | error a => simp [h1, bind, Except.bind] at h
    | ok s1 =>
      simp only [h1, bind, Except.bind] at h
      rw [pairwise_cons] at hrs
      refine htrans _ _ _ (hrow r mem_cons_self s s1 (hsub r mem_cons_self) h1)
        (ih hrs.2 (fun x hx => hrow x (mem_cons_of_mem _ hx)) (fun y hy => ?_) h)
      obtain ⟨ns1, t1, n, t2, ns2, e1, e2, e3⟩ := updateRow_ok h1
      have k1 : (T.get t1).rows = (T.get s).rows :=
        batch_keeps (g := fun s => (T.get s).rows) (hb r (f r)) e1
      have k3 : (T.get s1).rows = (T.get t2).rows :=
        batch_keeps (g := fun s => (T.get s).rows) (ha r (f r)) e3
      obtain ⟨-, t, ht, rfl⟩ := update_ok e2
      rw [k3, T.get_set, ht, k1]
      refine mem_map.mpr ⟨y, hsub y (mem_cons_of_mem _ hy), if_neg ?_⟩
      rw [beq_iff_eq]
      exact Ne.symm (hrs.1 y hy)

variable {f : σ → ρ → ρ}

theorem updateEach_stored (hrefl : ∀ s, R s s) (htrans : ∀ a b c, R a b → R b c → R a c)
    (hb : ∀ a b, ∀ st ∈ before a b, Keeps (fun s => (T.get s).rows) st)
    (ha : ∀ a b, ∀ st ∈ after a b, Keeps (fun s => (T.get s).rows) st)
    (hrow : ∀ r, p s r = true → ∀ t t', r ∈ (T.get t).rows → updateRow T before after r (f s r) t = .ok t' → R t t')
    (h : updateEach T before after p f c s = .ok (n, s')) : R s s' :=
  updateRows_stored hrefl htrans hb ha ((T.get s).keys_pairwise.filter _)
    (fun r hr => hrow r (mem_filter.mp hr).2) (fun _ hr => (mem_filter.mp hr).1)
    (updateEach_ok h).2

/-- An UPDATE with triggers stays within what the change of a row and its triggers stay within. -/
theorem updateEach_within (hrefl : ∀ s, R s s) (htrans : ∀ a b c, R a b → R b c → R a c)
    (hb : ∀ s r, p s r = true → ∀ st ∈ before r (f s r), Within R st)
    (hu : ∀ r r' : ρ, Within R (update T (fun _ x => KeyedRow.key x == KeyedRow.key r) fun _ _ => r'))
    (ha : ∀ s r, p s r = true → ∀ st ∈ after r (f s r), Within R st) : Within R (updateEach T before after p f) := by
  intro c s n s' h
  exact updateRows_within hrefl htrans (fun r hr => hb s r (mem_filter.mp hr).2) (fun r _ => hu r _)
    (fun r hr => ha s r (mem_filter.mp hr).2) (updateEach_ok h).2

theorem updateEach_keeps {γ : Type} {g : σ → γ} (hT : ∀ s t, g (T.set s t) = g s)
    (hb : ∀ a b, ∀ st ∈ before a b, Keeps g st) (ha : ∀ a b, ∀ st ∈ after a b, Keeps g st) :
    Keeps g (updateEach T before after p f) :=
  updateEach_within (R := fun s s' => g s' = g s) (fun _ => rfl) (fun _ _ _ hab hbc => hbc.trans hab)
    (fun _ r _ => hb r _) (fun _ _ => update_keeps hT) fun _ r _ => ha r _

/-- The table itself, when its triggers do not write it and the key is kept: every hit row is
rewritten, the others stay. -/
theorem updateRows_rows {f : ρ → ρ} (hf : ∀ r, KeyedRow.key (f r) = KeyedRow.key r)
    (hb : ∀ a b, ∀ st ∈ before a b, Keeps (fun s => (T.get s).rows) st)
    (ha : ∀ a b, ∀ st ∈ after a b, Keeps (fun s => (T.get s).rows) st)
    (hrs : rs.Pairwise (fun a b => KeyedRow.key a ≠ KeyedRow.key b)) (hsub : ∀ r ∈ rs, r ∈ (T.get s).rows)
    (h : updateRows T before after f rs s = .ok s') :
    (T.get s').rows = (T.get s).rows.map (fun x => if KeyedRow.key x ∈ rs.map KeyedRow.key then f x else x) := by
  induction rs generalizing s with
  | nil =>
    simp only [updateRows, Except.ok.injEq] at h
    simp [h]
  | cons r rs ih =>
    unfold updateRows at h
    cases h1 : updateRow T before after r (f r) s with
    | error a => simp [h1, bind, Except.bind] at h
    | ok s1 =>
      simp only [h1, bind, Except.bind] at h
      rw [pairwise_cons] at hrs
      obtain ⟨ns1, t1, n, t2, ns2, e1, e2, e3⟩ := updateRow_ok h1
      have k1 : (T.get t1).rows = (T.get s).rows :=
        batch_keeps (g := fun s => (T.get s).rows) (hb r (f r)) e1
      have k3 : (T.get s1).rows = (T.get t2).rows :=
        batch_keeps (g := fun s => (T.get s).rows) (ha r (f r)) e3
      obtain ⟨-, t, ht, rfl⟩ := update_ok e2
      -- the row stored under the key of `r` is `r` itself
      have hrow : (T.get s1).rows =
          (T.get s).rows.map (fun x => if KeyedRow.key x = KeyedRow.key r then f x else x) := by
        rw [k3, T.get_set, ht, k1]
        refine map_congr_left fun x hx => ?_
        by_cases hxr : KeyedRow.key x = KeyedRow.key r
        · rw [eq_of_key hx (hsub r mem_cons_self) hxr]
          simp
        · simp [hxr]
      have hsub' : ∀ y ∈ rs, y ∈ (T.get s1).rows := by
        intro y hy
        rw [hrow]
        refine mem_map.mpr ⟨y, hsub y (mem_cons_of_mem _ hy), ?_⟩
        rw [if_neg (Ne.symm (hrs.1 y hy))]
      rw [ih hrs.2 hsub' h, hrow, map_map]
      refine map_congr_left fun x _ => ?_
      by_cases hxr : KeyedRow.key x = KeyedRow.key r
      · have hnot : KeyedRow.key r ∉ rs.map KeyedRow.key := by
          simp only [mem_map, not_exists, not_and]
          exact fun y hy he => hrs.1 y hy he.symm
        simp only [Function.comp_apply, hxr, if_true, hf, if_neg hnot, map_cons, mem_cons, true_or]
      · simp [hxr]

theorem updateEach_rows {f : σ → ρ → ρ} (hf : ∀ s r, KeyedRow.key (f s r) = KeyedRow.key r)
    (hb : ∀ a b, ∀ st ∈ before a b, Keeps (fun s => (T.get s).rows) st)
    (ha : ∀ a b, ∀ st ∈ after a b, Keeps (fun s => (T.get s).rows) st)
    (h : updateEach T before after p f c s = .ok (n, s')) :
    (T.get s').rows = (T.get s).rows.map (fun r => if p s r then f s r else r) := by
  rw [updateRows_rows (hf s) hb ha ((T.get s).keys_pairwise.filter _)
    (fun r hr => (mem_filter.mp hr).1) (updateEach_ok h).2]
  refine map_congr_left fun x hx => ?_
  have hiff : KeyedRow.key x ∈ ((T.get s).rows.filter (p s)).map KeyedRow.key ↔ p s x = true := by
    rw [mem_map]
    constructor
    · rintro ⟨y, hy, hk⟩
      rw [mem_filter] at hy
      rw [← eq_of_key hy.1 hx hk]
      exact hy.2
    · intro hp
      exact ⟨x, mem_filter.mpr ⟨hx, hp⟩, rfl⟩
  by_cases hp : p s x = true
  · rw [if_pos (hiff.mpr hp), if_pos hp]
  · rw [if_neg (fun h => hp (hiff.mp h)), if_neg hp]

end Triggers

section InsertTriggers

variable {σ ρ : Type} [Row ρ]

/-- The rows of an INSERT one after the other, each followed by its AFTER statements. -/
def insertRows (T : TableRef σ ρ) (after : ρ → List (Stmt σ)) : List ρ → σ → Except Abort σ
  | [], s => .ok s
  | r :: rs, s => do
    let (_, s) ← insert T .abort (fun _ => [r]) 0 s
    let (_, s) ← batch (after r) 0 s
    insertRows T after rs s

/-- `INSERT INTO T SELECT …` on a table with an AFTER INSERT trigger. -/
def insertEach (T : TableRef σ ρ) (after : ρ → List (Stmt σ)) (g : σ → List ρ) : Stmt σ :=
  fun _ s => do
    let s' ← insertRows T after (g s) s
    .ok ((g s).length, s')

variable {T : TableRef σ ρ} {after : ρ → List (Stmt σ)}

variable {s s' : σ} {rs : List ρ}

theorem insertRows_cons_ok {r : ρ} (h : insertRows T after (r :: rs) s = .ok s') :
    ∃ n s1 ns s2, insert T .abort (fun _ => [r]) 0 s = .ok (n, s1) ∧
      batch (after r) 0 s1 = .ok (ns, s2) ∧ insertRows T after rs s2 = .ok s' := by
  unfold insertRows at h
  cases h1 : insert T .abort (fun _ => [r]) 0 s with
  | error a => simp [h1, bind, Except.bind] at h
  | ok r1 =>
    simp only [h1, bind, Except.bind] at h
    cases h2 : batch (after r) 0 r1.2 with
    | error a => simp [h2] at h
    | ok r2 =>
      simp only [h2] at h
      exact ⟨r1.1, r1.2, r2.1, r2.2, rfl, h2, h⟩

theorem insertEach_ok {g : σ → List ρ} {c n : Nat} (h : insertEach T after g c s = .ok (n, s')) :
    n = (g s).length ∧ insertRows T after (g s) s = .ok s' := by
  unfold insertEach at h
  cases h1 : insertRows T after (g s) s with
  | error a => simp [h1, bind, Except.bind] at h
  | ok r =>
    simp only [h1, bind, Except.bind, Except.ok.injEq, Prod.mk.injEq] at h
    exact ⟨h.1.symm, by rw [h.2]⟩

theorem insertRows_keeps {γ : Type} {g : σ → γ} (hT : ∀ s t, g (T.set s t) = g s)
    (ha : ∀ r, ∀ st ∈ after r, Keeps g st) (h : insertRows T after rs s = .ok s') : g s' = g s := by
  induction rs generalizing s with
  | nil =>
    simp only [insertRows, ok.injEq] at h
    rw [h]
  | cons r rs ih =>
    obtain ⟨n, s1, ns, s2, h1, h2, h3⟩ := insertRows_cons_ok h
    rw [ih h3, batch_keeps (ha r) h2, (insert_keeps hT).eq h1]

theorem insertEach_keeps {γ : Type} {g : σ → γ} (hT : ∀ s t, g (T.set s t) = g s)
    (ha : ∀ r, ∀ st ∈ after r, Keeps g st) (f : σ → List ρ) : Keeps g (insertEach T after f) :=
  fun _ _ _ _ h => insertRows_keeps hT ha (insertEach_ok h).2

theorem insertRows_rows (ha : ∀ r, ∀ st ∈ after r, Keeps (fun s => (T.get s).rows) st)
    (h : insertRows T after rs s = .ok s') : (T.get s').rows = (T.get s).rows ++ rs := by
  induction rs generalizing s with
  | nil =>
    simp only [insertRows, ok.injEq] at h
    simp [h]
  | cons r rs ih =>
    obtain ⟨n, s1, ns, s2, h1, h2, h3⟩ := insertRows_cons_ok h
    have k2 : (T.get s2).rows = (T.get s1).rows :=
      batch_keeps (g := fun s => (T.get s).rows) (ha r) h2
    obtain ⟨-, t, ht, rfl⟩ := insert_abort_ok h1
    rw [ih h3, k2, T.get_set, ht, append_assoc, singleton_append]

theorem insertEach_rows (ha : ∀ r, ∀ st ∈ after r, Keeps (fun s => (T.get s).rows) st) {g : σ → List ρ}
    {c n : Nat} (h : insertEach T after g c s = .ok (n, s')) :
    n = (g s).length ∧ (T.get s').rows = (T.get s).rows ++ g s :=
  ⟨(insertEach_ok h).1, insertRows_rows ha (insertEach_ok h).2⟩

end InsertTriggers

end Stmt

end Sql
