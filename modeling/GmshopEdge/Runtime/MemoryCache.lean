import GmshopEdge.Lib.Lru
import GmshopEdge.Lib.Record

/-!
# The memory cache

`NodeMemoryCache` (`server/runtime/node/cache.ts`). The entries are a map in the order of insertion; a `get` takes its
entry out and puts it at the end, and entries leave from the front. Values are their bytes, as `put` makes them and
before `get` makes a text of them; every operation is given the time that its clock shows.

The cache is a least recently used store (`cache_refines_lru`): the order of the map is that of the last uses.
-/

namespace Gmshop

open List

/-! ## The code -/

structure CacheValue where
  value : List UInt8
  expiresAt : Option Int

structure NodeMemoryCacheOptions where
  maxEntries : Option Nat := none
  maxBytes : Option Nat := none

structure NodeMemoryCache where
  maxEntries : Nat
  maxBytes : Nat
  entries : Record String CacheValue := .empty
  totalBytes : Int := 0

structure PutOptions where
  expiration : Option Int := none
  expirationTtl : Option Int := none

def PutOptions.expiresAt (options : PutOptions) (now : Int) : Option Int :=
  match options.expiration.filter (· ≠ 0), options.expirationTtl.filter (· ≠ 0) with
  | some expiration, _ => some (expiration * 1000)
  | none, some expirationTtl => some (now + expirationTtl * 1000)
  | none, none => none

namespace NodeMemoryCache

def new (options : NodeMemoryCacheOptions) : NodeMemoryCache where
  maxEntries := max 1 (options.maxEntries.getD 10000)
  maxBytes := max 1 (options.maxBytes.getD (64 * 1024 * 1024))

def deleteEntry (key : String) (c : NodeMemoryCache) : NodeMemoryCache :=
  match c.entries.get key with
  | none => c
  | some entry => { c with entries := c.entries.erase key, totalBytes := c.totalBytes - entry.value.length }

def get (key : String) (now : Int) (c : NodeMemoryCache) : Option (List UInt8) × NodeMemoryCache :=
  match c.entries.get key with
  | none => (none, c)
  | some entry =>
    if entry.expiresAt.any fun t => decide (t ≤ now) then (none, c.deleteEntry key)
    else (some entry.value, { c with entries := (c.entries.erase key).set key entry })

def overLimits (c : NodeMemoryCache) : Bool :=
  decide (c.maxEntries < c.entries.entries.length) || decide ((c.maxBytes : Int) < c.totalBytes)

theorem deleteEntry_length_lt {c : NodeMemoryCache} {oldest : String × CacheValue} {rest : List (String × CacheValue)}
    (h : c.entries.entries = oldest :: rest) :
    (c.deleteEntry oldest.1).entries.entries.length < c.entries.entries.length := by
  have hget : c.entries.get oldest.1 = some oldest.2 := Record.get_eq_some_iff.mpr (h ▸ mem_cons_self)
  rw [deleteEntry, hget, Record.erase_head h, h, length_cons]
  exact Nat.lt_succ_self _

/-- The `while` at the end of `put`. -/
def evict (c : NodeMemoryCache) : NodeMemoryCache :=
  if c.overLimits then
    match _h : c.entries.entries with
    | [] => c
    | oldest :: _ => (c.deleteEntry oldest.1).evict
  else c
termination_by c.entries.entries.length
decreasing_by exact deleteEntry_length_lt ‹_›

def put (key : String) (bytes : List UInt8) (options : PutOptions) (now : Int) (c : NodeMemoryCache) : NodeMemoryCache :=
  let c := c.deleteEntry key
  if c.maxBytes < bytes.length then c
  else
    evict { c with entries := c.entries.set key ⟨bytes, options.expiresAt now⟩, totalBytes := c.totalBytes + bytes.length }

end NodeMemoryCache

inductive CacheOp where
  | get (key : String)
  | put (key : String) (bytes : List UInt8) (options : PutOptions)
  | delete (key : String)

def CacheOp.run (now : Int) (c : NodeMemoryCache) : CacheOp → Option (List UInt8) × NodeMemoryCache
  | .get key => c.get key now
  | .put key bytes options => (none, c.put key bytes options now)
  | .delete key => (none, c.deleteEntry key)

/-- A sequence of operations, each with the time of its clock, on a new cache: the answers and the cache after it. -/
def runCache (options : NodeMemoryCacheOptions) (ops : List (Int × CacheOp)) :
    List (Option (List UInt8)) × NodeMemoryCache :=
  ops.foldl (fun r op => let (reply, c) := op.2.run op.1 r.2; (r.1 ++ [reply], c)) ([], .new options)

/-! ## As a least recently used store -/

def CacheValue.size (v : CacheValue) : Nat := v.value.length

def CacheValue.expired (now : Int) (v : CacheValue) : Prop := ∃ t ∈ v.expiresAt, t ≤ now

def CacheOp.request (now : Int) : CacheOp → Lru.Request String CacheValue
  | .get key => .get key
  | .put key bytes options => .put key ⟨bytes, options.expiresAt now⟩
  | .delete key => .delete key

def NodeMemoryCache.limits (c : NodeMemoryCache) : Lru.Limits := ⟨c.maxEntries, c.maxBytes⟩

def entryBytes (entries : List (String × CacheValue)) : Nat := (entries.map fun e => e.2.size).sum

/-- The cache holds the values of the store in the order of their last uses, and counts their bytes. -/
structure Simulates (c : NodeMemoryCache) (s : Lru.Store String CacheValue) : Prop where
  cells : ∀ k, (s.cell k).map (·.value) = c.entries.get k
  order : c.entries.entries.Pairwise fun a b => s.used a.1 < s.used b.1
  total : c.totalBytes = entryBytes c.entries.entries

namespace Simulates

variable {c : NodeMemoryCache} {s : Lru.Store String CacheValue}

section

variable (h : Simulates c s)
include h

theorem mem_keys (k : String) : k ∈ s.keys ↔ k ∈ c.entries.names := by
  rw [s.mem_keys, Record.mem_names_iff, ← h.cells, Option.isSome_iff_exists]
  constructor
  · rintro ⟨cell, hcell⟩
    exact ⟨cell.value, by rw [hcell]; rfl⟩
  · rintro ⟨v, hv⟩
    obtain ⟨cell, hcell, -⟩ := Option.map_eq_some_iff.mp hv
    exact ⟨cell, hcell⟩

theorem keys_eq : s.keys = c.entries.names.toFinset := by
  refine Finset.ext fun k => ?_
  rw [mem_toFinset]
  exact h.mem_keys k

theorem sizeOf_eq {e : String × CacheValue} (he : e ∈ c.entries.entries) :
    s.sizeOf CacheValue.size e.1 = e.2.size := by
  have hget : c.entries.get e.1 = some e.2 := Record.get_eq_some_iff.mpr he
  rw [← h.cells] at hget
  obtain ⟨cell, hcell, hvalue⟩ := Option.map_eq_some_iff.mp hget
  rw [Lru.Store.sizeOf, hcell, ← hvalue]
  rfl

theorem bytes_eq : s.bytes CacheValue.size = entryBytes c.entries.entries := by
  have hnodup : c.entries.names.Nodup := c.entries.nodup
  rw [Lru.Store.bytes, h.keys_eq, sum_toFinset _ hnodup, Record.names, map_map]
  exact congrArg sum (map_congr_left fun e he => h.sizeOf_eq he)

theorem card_eq : s.keys.card = c.entries.entries.length := by
  have hnodup : c.entries.names.Nodup := c.entries.nodup
  rw [h.keys_eq, toFinset_card_of_nodup hnodup, Record.names, length_map]

theorem overLimits_iff : c.overLimits = true ↔ ¬ s.Fits c.limits CacheValue.size := by
  rw [Lru.Store.Fits, h.bytes_eq, h.card_eq, NodeMemoryCache.overLimits, h.total, Bool.or_eq_true, decide_eq_true_iff,
    decide_eq_true_iff]
  show _ ↔ ¬ (c.entries.entries.length ≤ c.maxEntries ∧ entryBytes c.entries.entries ≤ c.maxBytes)
  omega

end

variable {v : CacheValue} {t : Lru.Store String CacheValue} {key : String}

theorem entryBytes_erase {k : String} (hget : c.entries.get k = some v) :
    entryBytes c.entries.entries = entryBytes (c.entries.erase k).entries + v.size := by
  obtain ⟨front, back, hentries, herased⟩ := Record.split_entries hget
  rw [hentries, herased]
  simp only [entryBytes, map_append, map_cons, sum_append, sum_cons]
  omega

theorem congr (h : Simulates c s) (hcell : ∀ x, t.cell x = s.cell x) : Simulates c t := by
  have hused : ∀ x, t.used x = s.used x := fun x => by rw [Lru.Store.used, Lru.Store.used, hcell]
  refine ⟨fun k => by rw [hcell]; exact h.cells k, h.order.imp fun {a b} hab => ?_, h.total⟩
  rw [hused, hused]
  exact hab

theorem deleteEntry (h : Simulates c s) (hcell : ∀ x, t.cell x = if x = key then none else s.cell x) :
    Simulates (c.deleteEntry key) t := by
  have hentries : (c.deleteEntry key).entries = c.entries.erase key := by
    unfold NodeMemoryCache.deleteEntry
    cases hget : c.entries.get key with
    | none => exact (Record.erase_fresh hget).symm
    | some v => rfl
  have hused : ∀ x, x ≠ key → t.used x = s.used x := by
    intro x hx
    rw [Lru.Store.used, Lru.Store.used, hcell, if_neg hx]
  refine ⟨fun k => ?_, ?_, ?_⟩
  · rw [hentries, hcell]
    by_cases hk : k = key
    · rw [if_pos hk, hk, Record.get_erase_self]
      rfl
    · rw [if_neg hk, Record.get_erase_ne _ hk]
      exact h.cells k
  · rw [hentries]
    refine (h.order.sublist filter_sublist).imp_of_mem fun {a b} ha hb hab => ?_
    have ha : a.1 ≠ key := of_decide_eq_true (mem_filter.mp ha).2
    have hb : b.1 ≠ key := of_decide_eq_true (mem_filter.mp hb).2
    rw [hused a.1 ha, hused b.1 hb]
    exact hab
  · rw [hentries]
    have htotal := h.total
    unfold NodeMemoryCache.deleteEntry
    cases hget : c.entries.get key with
    | none =>
      rw [Record.erase_fresh hget]
      exact htotal
    | some v =>
      rw [entryBytes_erase hget] at htotal
      show c.totalBytes - v.size = _
      omega

theorem toEnd {c' : NodeMemoryCache} (h : Simulates c s) {n : Nat} (hn : ∀ k ∈ s.keys, s.used k < n)
    (hentries : c'.entries = (c.entries.erase key).set key v)
    (htotal : c'.totalBytes = entryBytes (c.entries.erase key).entries + v.size) :
    Simulates c' (s.set key ⟨v, n⟩) := by
  refine ⟨fun k => ?_, ?_, ?_⟩
  · rw [hentries]
    show (if k = key then some ⟨v, n⟩ else s.cell k).map (·.value) = _
    by_cases hk : k = key
    · rw [if_pos hk, hk, Record.get_set_self]
      rfl
    · rw [if_neg hk, Record.get_set_ne _ hk, Record.get_erase_ne _ hk]
      exact h.cells k
  · rw [hentries, Record.entries_set_erase, pairwise_append]
    have hne : ∀ e ∈ (c.entries.erase key).entries, e.1 ≠ key := fun e he =>
      of_decide_eq_true (mem_filter.mp he).2
    refine ⟨(h.order.sublist filter_sublist).imp_of_mem fun {a b} ha hb hab => ?_, pairwise_singleton _ _,
      fun a ha b hb => ?_⟩
    · rw [Lru.Store.used_set, Lru.Store.used_set, if_neg (hne a ha), if_neg (hne b hb)]
      exact hab
    · rw [mem_singleton.mp hb, Lru.Store.used_set, Lru.Store.used_set, if_neg (hne a ha), if_pos rfl]
      refine hn a.1 ((h.mem_keys a.1).mpr ?_)
      exact mem_map_of_mem (f := Prod.fst) (mem_of_mem_filter ha)
  · rw [hentries, htotal, Record.entries_set_erase, entryBytes, entryBytes, map_append, sum_append,
      map_singleton, sum_singleton]
    rfl

end Simulates

/-! ## Eviction -/

structure Leaving (l : Lru.Limits) (s : Lru.Store String CacheValue) (gone : Finset String) : Prop where
  stored : gone ⊆ s.keys
  oldest : ∀ e ∈ gone, ∀ k ∈ s.keys, k ∉ gone → s.used e < s.used k
  needed : ∀ e ∈ gone, ¬ (s.without (s.olderThan e)).Fits l CacheValue.size

variable {gone : Finset String} {s : Lru.Store String CacheValue}

variable {c : NodeMemoryCache}

theorem Leaving.next (h : Leaving c.limits s gone) (hs : Simulates c (s.without gone))
    {oldest : String × CacheValue} {rest : List (String × CacheValue)}
    (hentries : c.entries.entries = oldest :: rest) (hover : ¬ (s.without gone).Fits c.limits CacheValue.size) :
    Leaving c.limits s (insert oldest.1 gone) := by
  have hkeys : ∀ k, k ∈ (s.without gone).keys ↔ k = oldest.1 ∨ k ∈ rest.map Prod.fst := by
    intro k
    rw [hs.mem_keys, Record.names, hentries, map_cons, mem_cons]
  obtain ⟨hstored, hnot⟩ := Finset.mem_sdiff.mp ((hkeys oldest.1).mpr (.inl rfl))
  have hused : ∀ k, k ∉ gone → (s.without gone).used k = s.used k := by
    intro k hk
    show (if k ∈ gone then none else s.cell k).elim 0 _ = _
    rw [if_neg hk]
    rfl
  -- the first entry was used before the others that are left
  have hfirst : ∀ k ∈ s.keys, k ∉ gone → k ≠ oldest.1 → s.used oldest.1 < s.used k := by
    intro k hk hkgone hne
    obtain ⟨e, he, rfl⟩ := mem_map.mp (((hkeys k).mp (Finset.mem_sdiff.mpr ⟨hk, hkgone⟩)).resolve_left hne)
    have horder := hs.order
    rw [hentries, pairwise_cons] at horder
    have hlt := horder.1 e he
    rwa [hused _ hnot, hused _ hkgone] at hlt
  refine ⟨Finset.insert_subset hstored h.stored, fun e he k hk hkgone => ?_, fun e he => ?_⟩
  · rw [Finset.mem_insert, not_or] at hkgone
    rcases Finset.mem_insert.mp he with rfl | he
    · exact hfirst k hk hkgone.2 hkgone.1
    · exact h.oldest e he k hk hkgone.2
  · rcases Finset.mem_insert.mp he with rfl | he
    · have holder : s.olderThan oldest.1 = gone := by
        refine Finset.ext fun k => ?_
        rw [Lru.Store.olderThan, Finset.mem_filter]
        constructor
        · rintro ⟨hk, hlt⟩
          by_contra hkgone
          rcases eq_or_ne k oldest.1 with rfl | hne
          · exact absurd hlt (Nat.lt_irrefl _)
          · exact absurd hlt (hfirst k hk hkgone hne).asymm
        · exact fun hk => ⟨h.stored hk, h.oldest k hk _ hstored hnot⟩
      rw [holder]
      exact hover
    · exact h.needed e he

theorem evict_simulates (hs : Simulates c (s.without gone)) (h : Leaving c.limits s gone) :
    c.evict.limits = c.limits ∧ ∃ gone, s.Evicts c.limits CacheValue.size gone ∧ Simulates c.evict (s.without gone) := by
  induction c using NodeMemoryCache.evict.induct generalizing gone with
  | case1 c hover hempty =>
    -- an empty map is within the limits
    have hfits := hs.overLimits_iff.mp hover
    refine absurd ⟨?_, ?_⟩ hfits
    · rw [hs.card_eq, hempty]
      exact Nat.zero_le _
    · rw [hs.bytes_eq, hempty]
      exact Nat.zero_le _
  | case2 c hover oldest rest hentries ih =>
    have hlimits : (c.deleteEntry oldest.1).limits = c.limits := by
      unfold NodeMemoryCache.deleteEntry
      split <;> rfl
    have hevict : c.evict = (c.deleteEntry oldest.1).evict := by
      rw [NodeMemoryCache.evict, if_pos hover]
      split
      · next hempty => rw [hempty] at hentries; cases hentries
      · next o r hsame =>
        rw [hentries] at hsame
        rw [(cons.inj hsame).1]
    have hnext := h.next hs hentries (hs.overLimits_iff.mp hover)
    have hdeleted : Simulates (c.deleteEntry oldest.1) (s.without (insert oldest.1 gone)) := by
      refine hs.deleteEntry fun x => ?_
      show (if x ∈ insert oldest.1 gone then none else s.cell x) =
        if x = oldest.1 then none else if x ∈ gone then none else s.cell x
      by_cases hx : x = oldest.1 <;> simp [hx]
    rw [hevict, ← hlimits]
    exact ih hdeleted (by rw [hlimits]; exact hnext)
  | case3 c hover =>
    have hevict : c.evict = c := by rw [NodeMemoryCache.evict, if_neg hover]
    have hfits : (s.without gone).Fits c.limits CacheValue.size := by
      by_contra hnot
      exact hover (hs.overLimits_iff.mpr hnot)
    rw [hevict]
    exact ⟨rfl, gone, ⟨h.stored, hfits, h.oldest, h.needed⟩, hs⟩

/-! ## Operations -/

theorem deleteEntry_limits (key : String) (c : NodeMemoryCache) : (c.deleteEntry key).limits = c.limits := by
  unfold NodeMemoryCache.deleteEntry
  split <;> rfl

theorem any_expired_iff {now : Int} {v : CacheValue} :
    (v.expiresAt.any fun t => decide (t ≤ now)) = true ↔ v.expired now := by
  unfold CacheValue.expired
  cases v.expiresAt <;> simp

theorem get_simulates {n : Nat} (h : Simulates c s) (hn : ∀ k ∈ s.keys, s.used k < n) (key : String) (now : Int) :
    (c.get key now).2.limits = c.limits ∧
      ∃ reply t, Lru.Step c.limits CacheValue.size (CacheValue.expired now) n s (.get key) reply t ∧
        reply.map (·.value) = (c.get key now).1 ∧ Simulates (c.get key now).2 t := by
  have hcell := h.cells key
  unfold NodeMemoryCache.get
  cases hget : c.entries.get key with
  | none =>
    rw [hget, Option.map_eq_none_iff] at hcell
    exact ⟨rfl, none, s, .miss hcell, rfl, h⟩
  | some entry =>
    rw [hget] at hcell
    obtain ⟨cell, hstored, rfl⟩ := Option.map_eq_some_iff.mp hcell
    dsimp only
    split
    · next hexpired =>
      refine ⟨deleteEntry_limits key c, none, _, .expired hstored ((any_expired_iff).mp hexpired), rfl, h.deleteEntry fun x => ?_⟩
      show (if x ∈ ({key} : Finset String) then none else s.cell x) = _
      simp only [Finset.mem_singleton]
    · next hlive =>
      refine ⟨rfl, some cell.value, _, .hit hstored fun hexpired => hlive ((any_expired_iff).mpr hexpired), rfl, ?_⟩
      exact h.toEnd hn rfl (h.total.trans (congrArg Nat.cast (Simulates.entryBytes_erase hget)))

theorem put_simulates {n : Nat} (h : Simulates c s) (hn : ∀ k ∈ s.keys, s.used k < n) (key : String)
    (bytes : List UInt8) (options : PutOptions) (now : Int) :
    (c.put key bytes options now).limits = c.limits ∧
      ∃ t, Lru.Step c.limits CacheValue.size (CacheValue.expired now) n s (.put key ⟨bytes, options.expiresAt now⟩) none t ∧
        Simulates (c.put key bytes options now) t := by
  have hdeleted : Simulates (c.deleteEntry key) (s.without {key}) := h.deleteEntry fun x => by
    show (if x ∈ ({key} : Finset String) then none else s.cell x) = _
    simp only [Finset.mem_singleton]
  have hlimits := deleteEntry_limits key c
  have hmax : (c.deleteEntry key).maxBytes = c.maxBytes := congrArg Lru.Limits.bytes hlimits
  unfold NodeMemoryCache.put
  dsimp only
  split
  · next hlarge =>
    rw [hmax] at hlarge
    exact ⟨hlimits, _, .tooLarge hlarge, hdeleted⟩
  · next hsmall =>
    rw [hmax] at hsmall
    have hsize : (⟨bytes, options.expiresAt now⟩ : CacheValue).size ≤ c.limits.bytes := Nat.le_of_not_lt hsmall
    have herased : (c.deleteEntry key).entries.erase key = (c.deleteEntry key).entries := by
      refine Record.erase_fresh ?_
      rw [← hdeleted.cells]
      show Option.map _ (if key ∈ ({key} : Finset String) then none else s.cell key) = none
      rw [if_pos (Finset.mem_singleton_self key)]
      rfl
    -- the new entry, before anything is evicted
    have hset : Simulates { c.deleteEntry key with
        entries := (c.deleteEntry key).entries.set key ⟨bytes, options.expiresAt now⟩
        totalBytes := (c.deleteEntry key).totalBytes + bytes.length }
        ((s.set key ⟨⟨bytes, options.expiresAt now⟩, n⟩).without ∅) := by
      refine Simulates.congr (hdeleted.toEnd (n := n) (fun k hk => ?_) (by rw [herased]) ?_) fun x => ?_
      · obtain ⟨hk, hne⟩ := Finset.mem_sdiff.mp hk
        have hused : (s.without {key}).used k = s.used k := by
          show (if k ∈ ({key} : Finset String) then none else s.cell k).elim 0 _ = _
          rw [if_neg hne]
          rfl
        rw [hused]
        exact hn k hk
      · rw [herased]
        show (c.deleteEntry key).totalBytes + _ = _
        rw [hdeleted.total]
        rfl
      · show (if x ∈ (∅ : Finset String) then none else if x = key then some _ else s.cell x) =
          if x = key then some _ else if x ∈ ({key} : Finset String) then none else s.cell x
        by_cases hx : x = key <;> simp [hx]
    obtain ⟨hevict, gone, hgone, hsim⟩ := evict_simulates hset ⟨Finset.empty_subset _,
      fun e he => absurd he (Finset.notMem_empty e), fun e he => absurd he (Finset.notMem_empty e)⟩
    have hlimits' : NodeMemoryCache.limits { c.deleteEntry key with
        entries := (c.deleteEntry key).entries.set key ⟨bytes, options.expiresAt now⟩
        totalBytes := (c.deleteEntry key).totalBytes + bytes.length } = c.limits := hlimits
    rw [hlimits'] at hevict hgone
    exact ⟨hevict, _, .put hsize hgone, hsim⟩

theorem run_simulates {n : Nat} (h : Simulates c s) (hn : ∀ k ∈ s.keys, s.used k < n) (op : CacheOp) (now : Int) :
    (op.run now c).2.limits = c.limits ∧
      ∃ reply t, Lru.Step c.limits CacheValue.size (CacheValue.expired now) n s (op.request now) reply t ∧
        reply.map (·.value) = (op.run now c).1 ∧ Simulates (op.run now c).2 t := by
  cases op with
  | get key => exact get_simulates h hn key now
  | put key bytes options =>
    obtain ⟨hlimits, t, hstep, hsim⟩ := put_simulates h hn key bytes options now
    exact ⟨hlimits, none, t, hstep, rfl, hsim⟩
  | delete key =>
    refine ⟨deleteEntry_limits key c, none, _, .delete, rfl, h.deleteEntry fun x => ?_⟩
    show (if x ∈ ({key} : Finset String) then none else s.cell x) = _
    simp only [Finset.mem_singleton]

/-! ## Sequences of operations -/

def requests (ops : List (Int × CacheOp)) : List (Int × Lru.Request String CacheValue) :=
  ops.map fun op => (op.1, op.2.request op.1)

section

variable (options : NodeMemoryCacheOptions) (ops : List (Int × CacheOp))
include options ops

theorem runCache_append (op : Int × CacheOp) :
    runCache options (ops ++ [op]) = ((runCache options ops).1 ++ [(op.2.run op.1 (runCache options ops).2).1],
      (op.2.run op.1 (runCache options ops).2).2) := by
  rw [runCache, foldl_append]
  rfl

theorem runCache_simulates :
    (runCache options ops).2.limits = (NodeMemoryCache.new options).limits ∧ ∃ replies s,
      Lru.Run (NodeMemoryCache.new options).limits CacheValue.size CacheValue.expired (requests ops) replies s ∧
        replies.map (Option.map (·.value)) = (runCache options ops).1 ∧ Simulates (runCache options ops).2 s := by
  induction ops using reverseRecOn with
  | nil => exact ⟨rfl, [], .empty, .start, rfl, fun _ => rfl, .nil, rfl⟩
  | append_singleton ops op ih =>
    obtain ⟨hlimits, replies, s, hrun, hreplies, hsim⟩ := ih
    obtain ⟨hkept, reply, t, hstep, hreply, hsim'⟩ := run_simulates hsim hrun.sound.used op.2 op.1
    rw [hlimits] at hstep
    rw [runCache_append]
    refine ⟨hkept.trans hlimits, replies ++ [reply], t, ?_, ?_, hsim'⟩
    · rw [requests, map_append]
      exact hrun.next hstep
    · rw [map_append, hreplies, map_singleton, hreply]

end

/-- The cache after a sequence of operations, next to a least recently used store `s`. -/
structure CacheSound (options : NodeMemoryCacheOptions) (ops : List (Int × CacheOp))
    (s : Lru.Store String CacheValue) : Prop where
  /-- The store answers as the cache has, and holds what the cache holds. -/
  refines : ∃ replies, Lru.Run (NodeMemoryCache.new options).limits CacheValue.size CacheValue.expired (requests ops) replies s ∧
    replies.map (Option.map (·.value)) = (runCache options ops).1
  cells : ∀ key, (s.cell key).map (·.value) = (runCache options ops).2.entries.get key
  total : (runCache options ops).2.totalBytes = entryBytes (runCache options ops).2.entries.entries
  entries_le : (runCache options ops).2.entries.entries.length ≤ (NodeMemoryCache.new options).maxEntries
  bytes_le : (runCache options ops).2.totalBytes ≤ (NodeMemoryCache.new options).maxBytes
  /-- A value that fits is there after its `put`. -/
  put_kept : ∀ key bytes o now, bytes.length ≤ (NodeMemoryCache.new options).maxBytes →
    ((runCache options ops).2.put key bytes o now).entries.get key = some ⟨bytes, o.expiresAt now⟩
  /-- A `put` evicts the least recently used entries that have to go, and leaves the others. -/
  put_evicts : ∀ key bytes o now, bytes.length ≤ (NodeMemoryCache.new options).maxBytes → ∀ gone,
    (s.set key ⟨⟨bytes, o.expiresAt now⟩, ops.length⟩).Evicts (NodeMemoryCache.new options).limits CacheValue.size gone →
    ∀ k, k ≠ key → ((runCache options ops).2.put key bytes o now).entries.get k =
      if k ∈ gone then none else (runCache options ops).2.entries.get k
  /-- What a `get` answers was put last, and has not expired. -/
  get_last : ∀ key now bytes, ((runCache options ops).2.get key now).1 = some bytes →
    ∃ v, Lru.lastPut (requests ops) key = some v ∧ v.value = bytes ∧ ¬ v.expired now
  /-- A `get` answers with what the cache holds, unless it has expired. -/
  get_held : ∀ key now v, (runCache options ops).2.entries.get key = some v → ¬ v.expired now →
    ((runCache options ops).2.get key now).1 = some v.value

/-- Two entries at most: the third evicts the one that was not read since. -/
example : (runCache ⟨some 2, none⟩ [(2000, .put "one" [1] {}), (2000, .put "two" [2] {}), (2000, .get "one"),
    (2000, .put "three" [3] {}), (2000, .get "two"), (2000, .get "one")]).1 =
      [none, none, some [1], none, none, some [1]] := by
  decide_cbv

end Gmshop
