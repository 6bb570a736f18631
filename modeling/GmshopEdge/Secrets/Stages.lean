import GmshopEdge.Secrets.Rewrites

/-!
# A stage alone

What a stage makes of the store when nothing else runs: the rows of its page that have a new value take it
(`RotationStage.applied`), and the capacities stay unless a delivery record of a component with a capacity
is among them.
-/

namespace Gmshop

open List hiding Vector
open Sql Stmt Prog Utf16

variable {c : WebCrypto} {keyring : Utf16} {ivs : SecretField → String → Utf16 → Vector UInt8 12}

/-! ## What every UPDATE keeps -/

def SecretRow.rest (r : SecretRow) : String × Bool × Option String × Option Utf16 :=
  (r.key, r.isSecret, r.link, r.written)

def SecretStore.generations (s : SecretStore) : Nat := s.capacity.sum SaleCapacity.generation

/-- Values aside the columns are the same, and no generation of a capacity goes back. -/
structure StoreKept (s t : SecretStore) : Prop where
  rows : ∀ field, (t.rows field).rows.map SecretRow.rest = (s.rows field).rows.map SecretRow.rest
  components : t.capacity.rows.map SaleCapacity.componentId = s.capacity.rows.map SaleCapacity.componentId
  generations : s.generations ≤ t.generations

theorem StoreKept.refl (s : SecretStore) : StoreKept s s := ⟨fun _ => rfl, rfl, Nat.le_refl _⟩

variable {s t : SecretStore} {key : String} {field : SecretField} {updates : List (SecretRow × Utf16)}
  {rows : List SecretRow} {rewrite : SecretRow → Except SecretError (Option Utf16)} {st : RotationStage}

theorem StoreKept.trans {u : SecretStore} (h : StoreKept s t) (h' : StoreKept t u) : StoreKept s u where
  rows field := (h'.rows field).trans (h.rows field)
  components := h'.components.trans h.components
  generations := Nat.le_trans h.generations h'.generations

def SecretStore.linkOf (s : SecretStore) (field : SecretField) (key : String) : Option String :=
  (s.find field key).bind SecretRow.link

def SecretStore.component (s : SecretStore) (key : String) : Option String :=
  (s.linkOf (.column .deliveryRecords) key).bind (s.linkOf .orderInputs)

def SecretStore.hasCapacity (s : SecretStore) (key : String) : Prop :=
  ∃ id ∈ s.capacity.rows.map SaleCapacity.componentId, s.component key = some id

theorem StoreKept.linkOf (h : StoreKept s t) (field : SecretField) (key : String) :
    t.linkOf field key = s.linkOf field key := by
  have hfind : ∀ rows : List SecretRow, (rows.find? (·.key == key)).bind SecretRow.link =
      ((rows.map SecretRow.rest).find? (·.1 == key)).bind (·.2.2.1) := by
    intro rows
    rw [find?_map, Option.bind_map]
    rfl
  unfold SecretStore.linkOf SecretStore.find
  rw [hfind, hfind, h.rows]

theorem StoreKept.hasCapacity (h : StoreKept s t) (key : String) : t.hasCapacity key ↔ s.hasCapacity key := by
  unfold SecretStore.hasCapacity SecretStore.component
  have hlink : t.linkOf .orderInputs = s.linkOf .orderInputs := funext (h.linkOf .orderInputs)
  rw [h.linkOf, hlink, h.components]

theorem SecretStore.find_eq_some {r : SecretRow} :
    s.find field key = some r ↔ r ∈ (s.rows field).rows ∧ r.key = key := by
  have hkey : ∀ x, s.find field key = some x → x ∈ (s.rows field).rows ∧ x.key = key := by
    intro x hx
    exact ⟨mem_of_find?_eq_some hx, by simpa using find?_some hx⟩
  refine ⟨hkey r, ?_⟩
  rintro ⟨hr, rfl⟩
  cases hfound : s.find field r.key with
  | none =>
    have hne := find?_eq_none.mp hfound r hr
    simp at hne
  | some x =>
    obtain ⟨hx, hsame⟩ := hkey x hfound
    rw [Table.eq_of_clash hx hr (beq_iff_eq.mpr hsame) (beq_iff_eq.mpr hsame.symm)]

theorem SecretStore.row_unique {a b : SecretRow} (ha : a ∈ (s.rows field).rows) (hb : b ∈ (s.rows field).rows)
    (h : a.key = b.key) : a = b :=
  Table.eq_of_clash ha hb (beq_iff_eq.mpr h) (beq_iff_eq.mpr h.symm)

/-! ## The trigger -/

theorem changedComponent_eq {next : Utf16} : s.changedComponent field key (fun _ => true) (some next) =
      if field = .column .deliveryRecords ∧ (∃ r ∈ (s.rows field).rows, r.key = key ∧ r.value ≠ some next)
      then s.component key else none := by
  unfold SecretStore.changedComponent
  by_cases hfield : field = .column .deliveryRecords
  · subst hfield
    rw [if_pos rfl]
    cases hr : s.find (.column .deliveryRecords) key with
    | none =>
      rw [if_neg]
      · rfl
      · rintro ⟨-, r, hmem, hkey, -⟩
        rw [(SecretStore.find_eq_some).mpr ⟨hmem, hkey⟩] at hr
        cases hr
    | some r =>
      obtain ⟨hmem, hkey⟩ := (SecretStore.find_eq_some).mp hr
      have hlink : s.component key = r.link.bind fun item => (s.find .orderInputs item).bind SecretRow.link := by
        simp only [SecretStore.component, SecretStore.linkOf, hr, Option.bind_some]
        rfl
      rw [Option.filter_some_pos rfl, hlink]
      simp only [Option.bind_eq_bind, Option.bind_some, reduceCtorEq, false_or, true_and]
      by_cases hsame : some next = r.value
      · rw [if_pos hsame, if_neg]
        · rfl
        · rintro ⟨x, hx, hxkey, hne⟩
          rw [SecretStore.row_unique hx hmem (hxkey.trans hkey.symm)] at hne
          exact hne hsame.symm
      · rw [if_neg hsame, if_pos ⟨r, hmem, hkey, Ne.symm hsame⟩]
  · rw [if_neg hfield, if_neg fun h => hfield h.1]

theorem ite_componentId (q : Bool) (x : SaleCapacity) : (if q then x.reset else x).componentId = x.componentId := by
  cases q <;> rfl

theorem reset_capacity {capacity later : Table SaleCapacity} {component : Option String}
    (h : later.rows = capacity.rows.map fun x => if component == some x.componentId then x.reset else x) :
    later.rows.map SaleCapacity.componentId = capacity.rows.map SaleCapacity.componentId ∧
      capacity.sum SaleCapacity.generation ≤ later.sum SaleCapacity.generation ∧
      ((∀ id ∈ capacity.rows.map SaleCapacity.componentId, component ≠ some id) → later = capacity) ∧
      ((∃ id ∈ capacity.rows.map SaleCapacity.componentId, component = some id) →
        capacity.sum SaleCapacity.generation < later.sum SaleCapacity.generation) := by
  have hle : ∀ x : SaleCapacity,
      x.generation ≤ (if component == some x.componentId then x.reset else x).generation := by
    intro x
    split
    · exact Nat.le_succ _
    · exact Nat.le_refl _
  have hsum : later.sum SaleCapacity.generation = (capacity.rows.map fun x =>
      (if component == some x.componentId then x.reset else x).generation).sum := by
    rw [Table.sum, h, map_map]
    rfl
  refine ⟨?_, ?_, ?_, ?_⟩
  · rw [h, map_map]
    exact map_congr_left fun x _ => ite_componentId _ x
  · rw [hsum]
    exact sum_le_sum fun x _ => hle x
  · intro hnone
    refine Table.ext_rows ?_
    rw [h]
    refine (map_congr_left fun x hx => if_neg fun heq => ?_).trans (map_id' _)
    exact hnone x.componentId (mem_map_of_mem hx) (beq_iff_eq.mp heq)
  · rintro ⟨id, hid, hcomponent⟩
    obtain ⟨x, hx, rfl⟩ := mem_map.mp hid
    rw [hsum]
    refine sum_lt_sum _ _ (fun y _ => hle y) ⟨x, hx, ?_⟩
    rw [if_pos (beq_iff_eq.mpr hcomponent)]
    exact Nat.lt_succ_self _

/-! ## One UPDATE -/

theorem ite_rest (q : Bool) (r : SecretRow) (next : Utf16) :
    (if q then { r with value := some next } else r).rest = r.rest := by
  cases q <;> rfl

theorem rotateSecret_total (field : SecretField) (key : String) (next : Utf16) (n : Nat) (s : SecretStore) :
    ∃ m t, rotateSecret field key next n s = .ok (m, t) ∧ StoreKept s t ∧ (t.rows field).rows =
        (s.rows field).rows.map (fun r => if r.key == key then { r with value := some next } else r) ∧
      (∀ other, other ≠ field → t.rows other = s.rows other) ∧
      ((field = .column .deliveryRecords → ¬ s.hasCapacity key) → t.capacity = s.capacity) ∧
      (field = .column .deliveryRecords → s.hasCapacity key →
        (∃ r ∈ (s.rows field).rows, r.key = key ∧ r.value ≠ some next) → s.generations < t.generations) := by
  have hrest : ∀ r : SecretRow, (if r.key == key && true then { r with value := some next } else r).rest =
      r.rest := fun r => ite_rest _ r next
  obtain ⟨table, htable, hrun⟩ := update_total (T := SecretStore.rowsT field) (s := s)
    (p := fun _ r => r.key == key && true) (f := fun _ r => { r with value := some next })
    (fun a b => by
      change ((if a.key == key && true then _ else a : SecretRow).rest.1 ==
        (if b.key == key && true then _ else b : SecretRow).rest.1) = (a.rest.1 == b.rest.1)
      rw [hrest, hrest]) (fun _ => rfl) n
  obtain ⟨capacity, hcapacity, hreset⟩ := update_total (T := SecretStore.capacityT)
    (s := (SecretStore.rowsT field).set s table)
    (p := fun _ x => s.changedComponent field key (fun _ => true) (some next) == some x.componentId)
    (f := fun _ x => x.reset) (fun a b => by simp only [Row.clash, ite_componentId]) (fun _ => rfl)
    (((SecretStore.rowsT field).get s).count fun r => r.key == key && true)
  obtain ⟨hids, hgenerations, hsame, hgrow⟩ := reset_capacity hcapacity
  have hcolumn : (Function.update s.rows field table) field = table := Function.update_self ..
  have hothers : ∀ other, other ≠ field → (Function.update s.rows field table) other = s.rows other :=
    fun other hne => Function.update_of_ne hne ..
  refine ⟨(s.rows field).count fun r => r.key == key && true,
    ⟨Function.update s.rows field table, capacity⟩, ?_, ⟨fun other => ?_, hids, hgenerations⟩, ?_,
    hothers, fun hno => hsame fun id hid heq => ?_, fun hfield hcap hnew => hgrow ?_⟩
  · unfold rotateSecret setSecret
    rw [hrun]
    simp only [Bind.bind, Except.bind]
    rw [hreset]
    rfl
  · change ((Function.update s.rows field table) other).rows.map _ = _
    by_cases hother : other = field
    · subst hother
      rw [hcolumn, htable, map_map]
      exact map_congr_left fun r _ => hrest r
    · rw [hothers other hother]
  · change ((Function.update s.rows field table) field).rows = _
    rw [hcolumn, htable]
    simp only [Bool.and_true]
    rfl
  · rw [changedComponent_eq] at heq
    split at heq
    · next hdelivery => exact hno hdelivery.1 ⟨id, hid, heq⟩
    · cases heq
  · obtain ⟨id, hid, heq⟩ := hcap
    exact ⟨id, hid, by rw [changedComponent_eq, if_pos ⟨hfield, hnew⟩, heq]⟩

/-! ## One batch -/

def updatedRow (updates : List (SecretRow × Utf16)) (r : SecretRow) : SecretRow :=
  match updates.find? (·.1.key == r.key) with
  | some u => { r with value := some u.2 }
  | none => r

theorem updatedRow_cons {u : SecretRow × Utf16} (hu : u.1.key ∉ updates.map (·.1.key)) (r : SecretRow) :
    updatedRow updates (if r.key == u.1.key then { r with value := some u.2 } else r) =
      updatedRow (u :: updates) r := by
  by_cases hkey : r.key = u.1.key
  · have hnone : updates.find? (·.1.key == r.key) = none := by
      rw [find?_eq_none]
      intro u' hu' heq
      refine hu (mem_map.mpr ⟨u', hu', ?_⟩)
      rw [beq_iff_eq] at heq
      exact heq.trans hkey
    rw [if_pos (beq_iff_eq.mpr hkey), updatedRow, updatedRow, hnone, find?_cons_of_pos (by simp [hkey])]
  · rw [if_neg (by simp [hkey]), updatedRow, updatedRow, find?_cons_of_neg (by simp [Ne.symm hkey])]

theorem rotate_total (field : SecretField) (hkeys : (updates.map (·.1.key)).Nodup) (n : Nat) (s : SecretStore) :
    ∃ ns t, batch (updates.map fun u => rotateSecret field u.1.key u.2) n s = .ok (ns, t) ∧ StoreKept s t ∧
      (t.rows field).rows = (s.rows field).rows.map (updatedRow updates) ∧
      (∀ other, other ≠ field → t.rows other = s.rows other) ∧
      ((field = .column .deliveryRecords → ∀ u ∈ updates, ¬ s.hasCapacity u.1.key) → t.capacity = s.capacity) ∧
      (field = .column .deliveryRecords → (∃ u ∈ updates, s.hasCapacity u.1.key ∧
        ∃ r ∈ (s.rows field).rows, r.key = u.1.key ∧ r.value ≠ some u.2) → s.generations < t.generations) := by
  induction updates generalizing n s with
  | nil =>
    refine ⟨[], s, rfl, .refl s, ?_, fun _ _ => rfl, fun _ => rfl, ?_⟩
    · exact (map_id' _).symm
    · rintro - ⟨u, hu, -⟩
      cases hu
  | cons u updates ih =>
    rw [map_cons, nodup_cons] at hkeys
    obtain ⟨m, mid, hone, hkept, hrows, hothers, hcap, hgrow⟩ := rotateSecret_total field u.1.key u.2 n s
    obtain ⟨ns, t, hrest, hkept', hrows', hothers', hcap', hgrow'⟩ := ih hkeys.2 m mid
    refine ⟨m :: ns, t, ?_, hkept.trans hkept', ?_, ?_, ?_, ?_⟩
    · rw [map_cons]
      simp only [batch, hone, hrest, Bind.bind, Except.bind]
    · rw [hrows', hrows, map_map]
      exact map_congr_left fun r _ => updatedRow_cons hkeys.1 r
    · exact fun other hne => (hothers' other hne).trans (hothers other hne)
    · intro hno
      rw [hcap' fun hfield u' hu' => ?_, hcap fun hfield => hno hfield u mem_cons_self]
      rw [hkept.hasCapacity]
      exact hno hfield u' (mem_cons_of_mem _ hu')
    · rintro hfield ⟨u', hu', hcapacity, r, hr, hkey, hne⟩
      rcases mem_cons.mp hu' with rfl | hu'
      · exact Nat.lt_of_lt_of_le (hgrow hfield hcapacity ⟨r, hr, hkey, hne⟩) hkept'.generations
      · refine Nat.lt_of_le_of_lt hkept.generations (hgrow' hfield ⟨u', hu', ?_, r, ?_, hkey, hne⟩)
        · rw [hkept.hasCapacity]
          exact hcapacity
        · rw [hrows, mem_map]
          refine ⟨r, hr, if_neg fun heq => hkeys.1 (mem_map.mpr ⟨u', hu', ?_⟩)⟩
          rw [beq_iff_eq] at heq
          exact hkey.symm.trans heq

/-! ## One stage -/

variable (c keyring ivs) in
def RotationStage.applied (st : RotationStage) (s : SecretStore) (r : SecretRow) : SecretRow :=
  if r ∈ st.page s then
    match st.rewrite c keyring ivs r with
    | .ok (some next) => { r with value := some next }
    | _ => r
  else r

variable (c keyring ivs) in
structure StageRan (st : RotationStage) (s t : SecretStore) : Prop where
  rewritten : ∀ r ∈ st.page s, ∃ next, st.rewrite c keyring ivs r = .ok next
  kept : StoreKept s t
  column : (t.rows st.field).rows = (s.rows st.field).rows.map (st.applied c keyring ivs s)
  others : ∀ other, other ≠ st.field → t.rows other = s.rows other
  capacity : (st.field = .column .deliveryRecords → ∀ r ∈ st.page s, ∀ next,
    st.rewrite c keyring ivs r = .ok (some next) → ¬ s.hasCapacity r.key) → t.capacity = s.capacity
  reset : st.field = .column .deliveryRecords → ∀ r ∈ st.page s, ∀ next,
    st.rewrite c keyring ivs r = .ok (some next) → r.value ≠ some next → s.hasCapacity r.key →
      s.generations < t.generations

theorem rewriteRows_sublist (h : rewriteRows rewrite rows = .ok updates) : (updates.map Prod.fst).Sublist rows := by
  induction rows generalizing updates with
  | nil =>
    simp only [rewriteRows, Except.ok.injEq] at h
    rw [← h]
    exact .slnil
  | cons row rows ih =>
    unfold rewriteRows at h
    cases hone : rewrite row with
    | error e => simp [hone, Bind.bind, Except.bind] at h
    | ok next =>
      cases hrest : rewriteRows rewrite rows with
      | error e => simp [hone, hrest, Bind.bind, Except.bind] at h
      | ok rest =>
        simp only [hone, hrest, Bind.bind, Except.bind, pure, Except.pure, Except.ok.injEq] at h
        subst h
        cases next with
        | none => exact (ih hrest).cons _
        | some next => exact (ih hrest).cons_cons _

theorem rewriteRows_total (h : ∀ r ∈ rows, ∃ next, rewrite r = .ok next) :
    ∃ updates, rewriteRows rewrite rows = .ok updates := by
  induction rows with
  | nil => exact ⟨[], rfl⟩
  | cons row rows ih =>
    obtain ⟨next, hnext⟩ := h row mem_cons_self
    obtain ⟨rest, hrest⟩ := ih fun r hr => h r (mem_cons_of_mem _ hr)
    refine ⟨(next.map (row, ·)).toList ++ rest, ?_⟩
    simp [rewriteRows, hnext, hrest, Bind.bind, Except.bind, pure, Except.pure]

theorem rewriteRows_each (h : rewriteRows rewrite rows = .ok updates) : ∀ r ∈ rows, ∃ next, rewrite r = .ok next := by
  induction rows generalizing updates with
  | nil => exact fun r hr => nomatch hr
  | cons row rows ih =>
    unfold rewriteRows at h
    cases hone : rewrite row with
    | error e => simp [hone, Bind.bind, Except.bind] at h
    | ok next =>
      cases hrest : rewriteRows rewrite rows with
      | error e => simp [hone, hrest, Bind.bind, Except.bind] at h
      | ok rest =>
        intro r hr
        rcases mem_cons.mp hr with rfl | hr
        · exact ⟨next, hone⟩
        · exact ih hrest r hr

theorem page_nodup (st : RotationStage) (s : SecretStore) : ((st.page s).map SecretRow.key).Nodup := by
  have hrows : ((s.rows st.field).rows.map SecretRow.key).Nodup := by
    rw [List.Nodup, pairwise_map]
    exact (s.rows st.field).distinct.imp fun h heq => beq_eq_false_iff_ne.mp h heq
  have hfilter : (((s.rows st.field).rows.filter st.selects).map SecretRow.key).Nodup :=
    hrows.sublist (filter_sublist.map SecretRow.key)
  have hsorted := ((perm_insertionSort (fun a b => a.key ≤ b.key)
    ((s.rows st.field).rows.filter st.selects)).map SecretRow.key).nodup_iff.mpr hfilter
  exact hsorted.sublist ((take_sublist ..).map SecretRow.key)

theorem RotationStage.run_alone : (st.run c keyring ivs).alone s =
    (match rewriteRows (st.rewrite c keyring ivs) (st.page s) with
      | .error e => (throw e : SecretProg Nat)
      | .ok updates => RotationStage.write st.field updates).alone s :=
  rfl

theorem stage_alone (h : rewriteRows (st.rewrite c keyring ivs) (st.page s) = .ok updates) :
    ∃ n t, (st.run c keyring ivs).alone s = (.ok n, t) ∧ StageRan c keyring ivs st s t := by
  have hmem := rewriteRows_mem h
  have hkeys : (updates.map (·.1.key)).Nodup := by
    have hsub := (rewriteRows_sublist h).map SecretRow.key
    rw [map_map] at hsub
    exact (page_nodup st s).sublist hsub
  obtain ⟨ns, t, hbatch, hkept, hrows, hothers, hcap, hgrow⟩ := rotate_total st.field hkeys 0 s
  have hrun : ∃ n, (RotationStage.write st.field updates).alone s = (.ok n, t) := by
    cases updates with
    | nil =>
      simp only [map_nil, batch_nil, Except.ok.injEq, Prod.mk.injEq] at hbatch
      rw [← hbatch.2]
      exact ⟨0, rfl⟩
    | cons u rest =>
      exact ⟨ns.sum, Prog.alone_bind (Prog.commit_alone hbatch)⟩
  obtain ⟨n, hrun⟩ := hrun
  have happlied : ∀ r ∈ (s.rows st.field).rows, updatedRow updates r = st.applied c keyring ivs s r := by
    intro r hr
    unfold updatedRow RotationStage.applied
    cases hfind : updates.find? (·.1.key == r.key) with
    | some u =>
      have hkey : u.1.key = r.key := by simpa using find?_some hfind
      obtain ⟨hpage, hnext⟩ := (hmem u).mp (mem_of_find?_eq_some hfind)
      obtain rfl : u.1 = r := SecretStore.row_unique (RotationStage.page_mem hpage).1 hr hkey
      rw [if_pos hpage, hnext]
    | none =>
      by_cases hpage : r ∈ st.page s
      · rw [if_pos hpage]
        cases hnext : st.rewrite c keyring ivs r with
        | error e => rfl
        | ok next =>
          cases next with
          | none => rfl
          | some next =>
            have hnone := find?_eq_none.mp hfind (r, next) ((hmem (r, next)).mpr ⟨hpage, hnext⟩)
            simp at hnone
      · rw [if_neg hpage]
  refine ⟨n, t, ?_, ⟨rewriteRows_each h, hkept, ?_, hothers, fun hno => hcap fun hfield u hu => ?_, ?_⟩⟩
  · rw [RotationStage.run_alone, h]
    exact hrun
  · rw [hrows]
    exact map_congr_left happlied
  · obtain ⟨hpage, hnext⟩ := (hmem u).mp hu
    exact hno hfield u.1 hpage u.2 hnext
  · intro hfield r hpage next hnext hne hcapacity
    exact hgrow hfield ⟨(r, next), (hmem (r, next)).mpr ⟨hpage, hnext⟩, hcapacity, r,
      (RotationStage.page_mem hpage).1, rfl, hne⟩

theorem stageRan_of_alone {n : Nat} (h : (st.run c keyring ivs).alone s = (.ok n, t)) :
    StageRan c keyring ivs st s t := by
  cases hrows : rewriteRows (st.rewrite c keyring ivs) (st.page s) with
  | error e =>
    rw [RotationStage.run_alone, hrows] at h
    cases h
  | ok updates =>
    obtain ⟨m, u, hrun, hran⟩ := stage_alone hrows
    rw [h] at hrun
    rw [(Prod.mk.inj hrun).2]
    exact hran

end Gmshop
