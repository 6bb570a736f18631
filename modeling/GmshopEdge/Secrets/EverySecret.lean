import GmshopEdge.Secrets.Reached
import GmshopEdge.Secrets.Updates

/-!
# Every secret

Calls migrate a store that the shop has written if and only if its stale secrets can be moved
(`migrates_iff`). Forwards, each call leaves fewer stale rows. Backwards, a stale row of the first store stays
as it was until a stage rewrites it (`Call.rewritten`); that stage had it on its page, opened its envelopes and
reset no capacity, and its readers find what it has written.
-/

namespace Gmshop

open List hiding Vector
open Sql Utf16 Except Prod

variable {c : WebCrypto} {keyringValue : Utf16} {keyring : SecretKeyring} {limit : Nat}
  {ivs : Nat → SecretField → String → Utf16 → Vector UInt8 12}

/-! ## Calls on a migratable store -/

variable {last m m' s t : SecretStore} {envelope next purpose text value : Utf16} {r r' : SecretRow}
  {field : SecretField} {e : Utf16 × Utf16} {st : RotationStage}

theorem Ready.round (hc : c.RoundTrips) (hk : parseKeyring keyringValue = .ok keyring) (hlimit : 0 < limit)
    (hs : Ready c keyringValue limit keyring s) (ivs : SecretField → String → Utf16 → Vector UInt8 12) :
    ∃ n t, (progressivelyReencryptSecrets c keyringValue ivs limit).alone s = (.ok n, t) ∧
      Ready c keyringValue limit keyring t ∧ Steps c keyringValue keyring s t ∧
      ∀ field, staleCount keyring field t ≤ staleCount keyring field s - 1 := by
  obtain ⟨n, t, hrun⟩ := hs.call ivs hc hk
  have hran := stagesRan_of_call hk hrun
  obtain ⟨ht, hsteps, -⟩ := hs.stagesRan hc hk (fun _ h => h) hran
  refine ⟨n, t, hrun, ht, hsteps, fun field => ?_⟩
  rcases hs.progress hc hk hlimit hran field with hlt | hzero <;> omega

variable (ivs) in
theorem Ready.rounds (hc : c.RoundTrips) (hk : parseKeyring keyringValue = .ok keyring) (hlimit : 0 < limit)
    (hs : Ready c keyringValue limit keyring s) (n : Nat) :
    Ready c keyringValue limit keyring (afterRotations c keyringValue limit ivs s n) ∧
      Steps c keyringValue keyring s (afterRotations c keyringValue limit ivs s n) ∧
      ∀ field, staleCount keyring field (afterRotations c keyringValue limit ivs s n) ≤
        staleCount keyring field s - n := by
  induction n with
  | zero => exact ⟨hs, .refl s, fun _ => Nat.le_refl _⟩
  | succ n ih =>
    obtain ⟨hready, hsteps, hcount⟩ := ih
    obtain ⟨m, t, hrun, ht, hstep, hfewer⟩ := hready.round hc hk hlimit (ivs n)
    have hafter : afterRotations c keyringValue limit ivs s (n + 1) = t := congrArg Prod.snd hrun
    rw [hafter]
    refine ⟨ht, hsteps.trans hstep, fun field => ?_⟩
    have hbefore := hcount field
    have hnow := hfewer field
    omega

def secretFields : List SecretField :=
  .orderInputs :: .jobInputs :: .settings :: secretSpecs.map fun spec => .column spec.column

theorem mem_secretFields (field : SecretField) : field ∈ secretFields := by
  cases field with
  | orderInputs => exact .head _
  | jobInputs => exact .tail _ (.head _)
  | settings => exact .tail _ (.tail _ (.head _))
  | column column =>
    obtain ⟨spec, hspec, rfl⟩ := specOf column
    exact .tail _ (.tail _ (.tail _ (mem_map.mpr ⟨spec, hspec, rfl⟩)))

theorem Ready.migrates (hc : c.RoundTrips) (hk : parseKeyring keyringValue = .ok keyring) (hlimit : 0 < limit)
    (hs : Ready c keyringValue limit keyring s) :
    Migrates c keyringValue limit keyring ivs s where
  returns n := by
    obtain ⟨m, t, hrun, -⟩ := (hs.rounds ivs hc hk hlimit n).1.round hc hk hlimit (ivs n)
    exact ⟨m, congrArg fst hrun⟩
  envelopes n := by
    obtain ⟨m, t, hrun, -, hstep, -⟩ := (hs.rounds ivs hc hk hlimit n).1.round hc hk hlimit (ivs n)
    have hafter : afterRotations c keyringValue limit ivs s (n + 1) = t := congrArg snd hrun
    rw [hafter]
    exact ⟨hstep.capacity, hstep.envelopes⟩
  current := by
    refine ⟨(secretFields.map fun field => staleCount keyring field s).sum, fun field r hr => ?_⟩
    have hcount := (hs.rounds ivs hc hk hlimit
      (secretFields.map fun field => staleCount keyring field s).sum).2.2 field
    have hsum : staleCount keyring field s ≤ (secretFields.map fun field => staleCount keyring field s).sum :=
      single_le_sum (fun _ _ => Nat.zero_le _) _ (mem_map_of_mem (mem_secretFields field))
    rw [Nat.sub_eq_zero_of_le hsum, Nat.le_zero, staleCount, countP_eq_zero] at hcount
    exact Bool.eq_false_of_not_eq_true (hcount r hr)
  readable n := (hs.rounds ivs hc hk hlimit n).2.1.texts

/-! ## Envelopes that open -/

theorem not_mem_of_mem_splitOn (sep : UInt16) (us : Utf16) : ∀ part ∈ us.splitOn sep, sep ∉ part := by
  induction us with
  | nil =>
    intro part hpart
    rw [splitOn_nil, mem_singleton] at hpart
    rw [hpart]
    exact not_mem_nil
  | cons u us ih =>
    intro part hpart
    rw [splitOn_cons_eq_if_modifyHead] at hpart
    by_cases hsep : (u == sep) = true
    · rw [if_pos hsep] at hpart
      rcases mem_cons.mp hpart with rfl | hpart
      · exact not_mem_nil
      · exact ih part hpart
    · rw [if_neg hsep] at hpart
      obtain ⟨first, rest, hsplit⟩ := exists_cons_of_ne_nil (splitOn_ne_nil sep us)
      rw [hsplit] at hpart ih
      rw [modifyHead_cons, mem_cons] at hpart
      rcases hpart with rfl | hpart
      · rw [mem_cons, not_or]
        refine ⟨?_, ih first mem_cons_self⟩
        rintro rfl
        exact hsep (BEq.rfl)
      · exact ih part (mem_cons_of_mem _ hpart)

theorem carried_of_opens (h : UnderCurrentKey keyring envelope)
    (hopen : decryptSecret c envelope keyringValue purpose = .ok text) : Carried keyring.current := by
  obtain ⟨hlength, hversion, hcurrent⟩ := h
  have hmem : keyring.current ∈ envelope.splitOn (unit '.') := mem_of_getElem? hcurrent
  refine ⟨fun hnil => ?_, not_mem_of_mem_splitOn _ _ _ hmem⟩
  unfold decryptSecret at hopen
  generalize envelope.splitOn (unit '.') = parts at hlength hversion hcurrent hopen
  match parts, hlength, hversion, hcurrent with
  | [_, _, iv, encrypted], _, hversion, hcurrent =>
    rw [hnil] at hcurrent
    simp at hversion hcurrent
    simp [hversion, hcurrent] at hopen

/-- AES-GCM rejects a key that was derived for another purpose; a purpose is a text of ASCII characters. -/
def RejectsPurpose (c : WebCrypto) : Prop :=
  ∀ material iv plain, ∀ purpose purpose' : Utf16, (∀ u ∈ purpose, u ≠ 0 ∧ u < 0x80) →
    (∀ u ∈ purpose', u ≠ 0 ∧ u < 0x80) → purpose ≠ purpose' → c.decrypt (encryptionKey c material purpose') iv
        (c.encrypt (encryptionKey c material purpose) iv plain) = none

theorem ascii_of_all {us : Utf16} (h : us.all (fun u => decide (u ≠ 0 ∧ u < 0x80)) = true) :
    ∀ u ∈ us, u ≠ 0 ∧ u < 0x80 :=
  fun u hu => of_decide_eq_true (all_eq_true.mp h u hu)

theorem decryptSecret_rejected (hc : c.RoundTrips) (hr : RejectsPurpose c)
    (hk : parseKeyring keyringValue = .ok keyring) {id material : Utf16} (hid : Carried id)
    (hm : keyring.material id = some material) {purpose' : Utf16} (hp : ∀ u ∈ purpose, u ≠ 0 ∧ u < 0x80)
    (hp' : ∀ u ∈ purpose', u ≠ 0 ∧ u < 0x80) (hne : purpose ≠ purpose') (text : Utf16) (iv : Vector UInt8 12) :
    decryptSecret c ([unit '.'].intercalate [envelopeVersion, id, toBase64 c iv.toList,
      toBase64 c (c.encrypt (encryptionKey c material purpose) iv.toList (c.encode text))])
      keyringValue purpose' = .error .platform := by
  have hiv := toBase64_ne_nil hc (iv_ne_nil iv)
  have hcipher := toBase64_ne_nil hc (hc.encrypt_ne_nil (encryptionKey c material purpose) iv.toList (c.encode text))
  have hreject := hr material iv.toList (c.encode text) purpose purpose' hp hp' hne
  unfold decryptSecret
  rw [splitOn_envelope hc hid.2]
  simp [hid.1, hiv, hcipher, hk, hm, fromBase64_toBase64 hc, hreject, bind, Except.bind, throw, throwThe,
    MonadExceptOf.throw]

/-! ## Stages of calls -/

theorem exists_leaving {α : Type} {R : α → α → Prop} {p : α → Prop} {a b : α}
    (h : Relation.ReflTransGen R a b) (ha : p a) (hb : ¬ p b) :
    ∃ x y, Relation.ReflTransGen R a x ∧ p x ∧ R x y ∧ ¬ p y ∧ Relation.ReflTransGen R y b := by
  induction h using Relation.ReflTransGen.head_induction_on with
  | refl => exact absurd ha hb
  | @head x y hstep hrest ih =>
    by_cases hy : p y
    · obtain ⟨u, v, hbefore, hu, huv, hv, hafter⟩ := ih hy
      exact ⟨u, v, hbefore.head hstep, hu, huv, hv, hafter⟩
    · exact ⟨x, y, .refl, ha, hstep, hy, hrest⟩

def StageRuns (c : WebCrypto) (keyringValue : Utf16) (limit : Nat) (keyring : SecretKeyring)
    (s t : SecretStore) : Prop :=
  ∃ st ∈ allStages limit keyring.current, ∃ ivs, StageRan c keyringValue ivs st s t

def Calls (c : WebCrypto) (keyringValue : Utf16) (limit : Nat) (keyring : SecretKeyring) :
    SecretStore → SecretStore → Prop :=
  Relation.ReflTransGen (StageRuns c keyringValue limit keyring)

theorem StagesRan.calls {ivs : SecretField → String → Utf16 → Vector UInt8 12} {stages : List RotationStage}
    (hstages : ∀ st ∈ stages, st ∈ allStages limit keyring.current)
    (h : StagesRan c keyringValue ivs stages s t) : Calls c keyringValue limit keyring s t := by
  induction stages generalizing s with
  | nil =>
    obtain rfl : s = t := h
    exact .refl
  | cons st stages ih =>
    obtain ⟨m, hran, hrest⟩ := h
    refine (ih (fun st' hst' => hstages st' (mem_cons_of_mem _ hst')) hrest).head ?_
    exact ⟨st, hstages st mem_cons_self, ivs, hran⟩

theorem Migrates.calls (hk : parseKeyring keyringValue = .ok keyring)
    (h : Migrates c keyringValue limit keyring ivs s) (n : Nat) :
    Calls c keyringValue limit keyring s (afterRotations c keyringValue limit ivs s n) := by
  induction n with
  | zero => exact .refl
  | succ n ih =>
    obtain ⟨rewritten, hrun⟩ := h.returns n
    have hran := stagesRan_of_call hk (Prod.ext hrun rfl)
    exact Relation.ReflTransGen.trans ih (hran.calls fun _ hst => hst)

theorem Calls.kept (h : Calls c keyringValue limit keyring s t) : StoreKept s t := by
  induction h with
  | refl => exact .refl s
  | tail _ hstep ih =>
    obtain ⟨st, -, ivs, hran⟩ := hstep
    exact ih.trans hran.kept

theorem Calls.formed (h : Calls c keyringValue limit keyring s t) (hs : RowsFormed s) : RowsFormed t := by
  induction h with
  | refl => exact hs
  | tail _ hstep ih =>
    obtain ⟨st, -, ivs, hran⟩ := hstep
    exact hran.formed ih

theorem StoreKept.row (h : StoreKept s t) (hr : r ∈ (s.rows field).rows) :
    ∃ r' ∈ (t.rows field).rows, r'.key = r.key := by
  have hrest : r.rest ∈ (t.rows field).rows.map SecretRow.rest := by
    rw [h.rows]
    exact mem_map_of_mem hr
  obtain ⟨r', hr', heq⟩ := mem_map.mp hrest
  exact ⟨r', hr', congrArg fst heq⟩

theorem Calls.page_iff (h : Calls c keyringValue limit keyring s t) (hs : RowsFormed s)
    {steady : RotationStage} (hsteady : steady.Steady) (hr : r ∈ (s.rows steady.field).rows)
    (hr' : r' ∈ (t.rows steady.field).rows) (hkey : r'.key = r.key) :
    r' ∈ steady.page t ↔ r ∈ steady.page s := by
  induction h generalizing r' with
  | refl => rw [SecretStore.row_unique hr' hr hkey]
  | @tail m t hbefore hstep ih =>
    obtain ⟨st, -, ivs, hran⟩ := hstep
    obtain ⟨x, hx, hxkey⟩ := (Calls.kept hbefore).row hr
    rw [← ih hx hxkey]
    exact hran.page_iff (Calls.formed hbefore hs) hsteady hx hr' (hkey.trans hxkey.symm)

theorem Calls.keeps_current (hk : parseKeyring keyringValue = .ok keyring)
    (h : Calls c keyringValue limit keyring s t) (hv : r.value = some value)
    (hcurrent : ∀ e ∈ secretsIn field value, UnderCurrentKey keyring e.2) (hr : r ∈ (s.rows field).rows) :
    r ∈ (t.rows field).rows := by
  induction h with
  | refl => exact hr
  | @tail m t _ hstep ih =>
    obtain ⟨st, -, ivs, hran⟩ := hstep
    by_cases hfield : field = st.field
    · subst hfield
      rw [hran.column, mem_map]
      refine ⟨r, ih, ?_⟩
      rcases applied_cases c keyringValue ivs st m r with
        hsame | ⟨-, next, hnext, -⟩
      · exact hsame
      · obtain ⟨value', purpose, hv', -, hrun, -⟩ := RotationStage.rewrite_some hnext
        obtain rfl := Option.some.inj (hv.symm.trans hv')
        rw [rewriteValue_current hk hv hcurrent] at hrun
        cases hrun
    · rw [hran.others field hfield]
      exact ih

/-! ## The rewriting of a stale row -/

/-- A stage that rewrites a row of the first store, between that store and a last one. -/
structure RowRewritten (c : WebCrypto) (keyringValue : Utf16) (limit : Nat) (keyring : SecretKeyring)
    (s last : SecretStore) (field : SecretField) (r : SecretRow) (st : RotationStage) (m m' : SecretStore)
    (ivs : SecretField → String → Utf16 → Vector UInt8 12) (next : Utf16) : Prop where
  stage : st ∈ allStages limit keyring.current
  before : Calls c keyringValue limit keyring s m
  ran : StageRan c keyringValue ivs st m m'
  after : Calls c keyringValue limit keyring m' last
  column : st.field = field
  page : r ∈ st.page m
  rewrites : st.rewrite c keyringValue ivs r = .ok (some next)
  left : r ∉ (m'.rows field).rows
  arrived : { r with value := some next } ∈ (m'.rows field).rows

theorem Calls.rewritten (h : Calls c keyringValue limit keyring s last) (hr : r ∈ (s.rows field).rows)
    (hgone : r ∉ (last.rows field).rows) :
    ∃ st m m' ivs next, RowRewritten c keyringValue limit keyring s last field r st m m' ivs next := by
  obtain ⟨m, m', hbefore, hmem, ⟨st, hst, ivs, hran⟩, hleft, hafter⟩ :=
    exists_leaving (p := fun t : SecretStore => r ∈ (t.rows field).rows) h hr hgone
  have hfield : st.field = field := by
    by_contra hne
    rw [hran.others field (Ne.symm hne)] at hleft
    exact hleft hmem
  subst hfield
  have happlied : st.applied c keyringValue ivs m r ∈ (m'.rows st.field).rows := by
    rw [hran.column]
    exact mem_map_of_mem hmem
  rcases applied_cases c keyringValue ivs st m r with
    hsame | ⟨hpage, next, hnext, hsame⟩
  · rw [hsame] at happlied
    exact absurd happlied hleft
  · rw [hsame] at happlied
    exact ⟨st, m, m', ivs, next, hst, hbefore, hran, hafter, rfl, hpage, hnext, hleft, happlied⟩

theorem Migrates.same_secrets (h : Migrates c keyringValue limit keyring ivs s) (n : Nat)
    (hr : r ∈ (s.rows field).rows)
    (hr' : r' ∈ ((afterRotations c keyringValue limit ivs s n).rows field).rows) (hkey : r'.key = r.key)
    (hpurpose : secretPurpose field r.key = some purpose) (hv : r.value = some value)
    (he : e ∈ secretsIn field value) : ∃ later, r'.value = some later ∧ ∃ e' ∈ secretsIn field later, e'.1 = e.1 ∧
        decryptSecret c e'.2 keyringValue purpose = decryptSecret c e.2 keyringValue purpose := by
  obtain ⟨x, hx, hxkey, htexts⟩ := forall₂_left (h.readable n field) r hr
  obtain rfl : x = r' := SecretStore.row_unique hx hr' (hxkey.trans hkey.symm)
  rw [hkey] at htexts
  have hmem : (e.1, decryptSecret c e.2 keyringValue purpose) ∈ readSecrets c keyringValue field r.key x.value := by
    rw [htexts]
    simp only [readSecrets, hv, hpurpose]
    exact mem_map_of_mem he
  cases hlater : x.value with
  | none =>
    rw [hlater] at hmem
    cases hmem
  | some later =>
    simp only [readSecrets, hlater, hpurpose, mem_map] at hmem
    obtain ⟨e', he', heq⟩ := hmem
    exact ⟨later, rfl, e', he', (mk.inj heq).1, (mk.inj heq).2⟩

section

variable (hc : c.RoundTrips) (hk : parseKeyring keyringValue = .ok keyring)
include hc hk

theorem Migrates.carried (hw : AppWritten c keyring s) (h : Migrates c keyringValue limit keyring ivs s)
    (hr : r ∈ (s.rows field).rows) (hpurpose : secretPurpose field r.key = some purpose)
    (hv : r.value = some value) (he : e ∈ secretsIn field value) : Carried keyring.current := by
  obtain ⟨n, hcurrent⟩ := h.current
  obtain ⟨r', hr', hkey⟩ := (h.calls hk n).kept.row hr
  obtain ⟨later, hlater, e', he', -, hopen⟩ := h.same_secrets n hr hr' hkey hpurpose hv he
  obtain ⟨text, hwritten⟩ := ((hw field r hr purpose hpurpose).2 value hv).2 e he
  rw [hwritten.decrypts hc hk] at hopen
  have hunder : UnderCurrentKey keyring e'.2 := by
    by_contra hnot
    have hstale : staleRow keyring field r' = true :=
      staleRow_iff.mpr ⟨purpose, later, by rw [hkey]; exact hpurpose, hlater, e', he', hnot⟩
    rw [hcurrent field r' hr'] at hstale
    cases hstale
  exact carried_of_opens hunder hopen

theorem Migrates.moved (hcarried : Carried keyring.current) (h : Migrates c keyringValue limit keyring ivs s)
    (n : Nat) (hr : r ∈ (s.rows field).rows) {ivs' : SecretField → String → Utf16 → Vector UInt8 12}
    (hrewritten : RowRewritten c keyringValue limit keyring s (afterRotations c keyringValue limit ivs s n) field r
      st m m' ivs' next) (hpurpose : secretPurpose field r.key = some purpose) (hv : r.value = some value)
    (he : e ∈ secretsIn field value) (hstale : ¬ UnderCurrentKey keyring e.2) :
    ∃ own clear iv later, st.purpose r.key = some own ∧ decryptSecret c e.2 keyringValue own = .ok clear ∧
      encryptSecret c clear keyringValue own iv = .ok later ∧
      decryptSecret c later keyringValue purpose = decryptSecret c e.2 keyringValue purpose := by
  obtain rfl := hrewritten.column
  obtain ⟨value', own, hv', hown, -, hre⟩ := RotationStage.rewrite_some hrewritten.rewrites
  obtain rfl := Option.some.inj (hv.symm.trans hv')
  have hcurrent : ∀ b ∈ secretsIn st.field next, UnderCurrentKey keyring b.2 := by
    intro b hb
    obtain ⟨a, -, -, hab⟩ := forall₂_right hre b hb
    rcases hab.cases hk with ⟨hunder, hsame⟩ | ⟨-, clear, iv, -, hlater⟩
    · rw [hsame]
      exact hunder
    · exact underCurrentKey_encryptSecret hc hk hcarried hlater
  obtain ⟨b, hb, hname, hab⟩ := forall₂_left hre e he
  rcases hab.cases hk with ⟨hunder, -⟩ | ⟨-, clear, iv, hclear, hlater⟩
  · exact absurd hunder hstale
  refine ⟨own, clear, iv, b.2, hown, hclear, hlater, ?_⟩
  have hlast := hrewritten.after.keeps_current hk rfl hcurrent hrewritten.arrived
  obtain ⟨later, hlater', e', he', hname', hopen⟩ := h.same_secrets n hr hlast rfl hpurpose hv he
  obtain rfl := Option.some.inj hlater'
  obtain rfl : e' = b := inj_on_of_nodup_map (nodup_secretsIn st.field next) he' hb (hname'.trans hname)
  exact hopen

end

/-! ## The conditions hold from the first -/

theorem stage_column {column : SecretColumn} {current : Utf16} (hst : st ∈ allStages limit current)
    (hfield : st.field = .column column) :
    ∃ spec ∈ secretSpecs, spec.column = column ∧ st = reencryptColumn limit current spec := by
  rcases mem_append.mp hst with hst | hst
  · have hne : ∀ st ∈ settingStages limit, ∀ column, st.field ≠ .column column := by
      unfold settingStages
      simp only [forall_mem_cons, not_mem_nil, false_implies, implies_true, and_true]
      refine ⟨?_, ?_, ?_, ?_, ?_, ?_⟩ <;> intro column <;> exact nofun
    exact absurd hfield (hne st hst column)
  · obtain ⟨spec, hspec, rfl⟩ := mem_map.mp hst
    exact ⟨spec, hspec, SecretField.column.inj hfield, rfl⟩

theorem RowRewritten.reached (hs : RowsFormed s) (hr : r ∈ (s.rows field).rows)
    {ivs : SecretField → String → Utf16 → Vector UInt8 12}
    (h : RowRewritten c keyringValue limit keyring s last field r st m m' ivs next) :
    Reached limit keyring.current s field r := by
  have hmem := (RotationStage.page_mem h.page).1
  have hfirst : ∀ steady : RotationStage, steady.Steady → steady.field = field → st = steady → r ∈ steady.page s := by
    rintro steady hsteady rfl rfl
    exact (h.before.page_iff hs hsteady hr hmem rfl).mp h.page
  have hsel := (RotationStage.page_mem h.page).2
  have hcolumn := h.column
  cases field with
  | column column =>
    obtain ⟨spec, -, -, rfl⟩ := stage_column h.stage hcolumn
    intro value hv
    simpa [reencryptColumn, hv] using hsel
  | orderInputs =>
    refine hfirst _ steady_orderInputs rfl ?_
    rcases mem_append.mp h.stage with hst | hst
    · simp only [settingStages, mem_cons, not_mem_nil, or_false] at hst
      rcases hst with rfl | rfl | rfl | rfl | rfl | rfl <;> first | rfl | cases hcolumn
    · obtain ⟨spec, -, rfl⟩ := mem_map.mp hst
      cases hcolumn
  | jobInputs =>
    refine hfirst _ steady_jobInputs rfl ?_
    rcases mem_append.mp h.stage with hst | hst
    · simp only [settingStages, mem_cons, not_mem_nil, or_false] at hst
      rcases hst with rfl | rfl | rfl | rfl | rfl | rfl <;> first | rfl | cases hcolumn
    · obtain ⟨spec, -, rfl⟩ := mem_map.mp hst
      cases hcolumn
  | settings =>
    intro hid
    refine hfirst _ steady_auth rfl ?_
    rcases mem_append.mp h.stage with hst | hst
    · simp only [settingStages, mem_cons, not_mem_nil, or_false] at hst
      -- the other settings are no sign-in provider's
      rcases hst with rfl | rfl | rfl | rfl | rfl | rfl
      · rw [show r.key = exchangeRateCredentialKey from beq_iff_eq.mp hsel] at hid
        exact absurd (by decide) hid
      · rfl
      · rw [show r.key = feishuAppSecretKey from beq_iff_eq.mp (Bool.and_eq_true_iff.mp hsel).1] at hid
        exact absurd (by decide) hid
      · rw [show r.key = telegramOwnerAlertBotTokenKey from beq_iff_eq.mp (Bool.and_eq_true_iff.mp hsel).1] at hid
        exact absurd (by decide) hid
      · cases hcolumn
      · cases hcolumn
    · obtain ⟨spec, -, rfl⟩ := mem_map.mp hst
      cases hcolumn

theorem Migrates.generations (h : Migrates c keyringValue limit keyring ivs s) (n : Nat) :
    (afterRotations c keyringValue limit ivs s n).generations = s.generations := by
  induction n with
  | zero => rfl
  | succ n ih =>
    rw [← ih]
    unfold SecretStore.generations
    rw [(h.envelopes n).1]

section

variable (hc : c.RoundTrips) (hr : RejectsPurpose c) (hk : parseKeyring keyringValue = .ok keyring)
include hc hr hk

theorem stock_lost (hcarried : Carried keyring.current) {clear later : Utf16} {iv : Vector UInt8 12}
    (hwritten : Written c keyring (ascii "stock-entry") text envelope)
    (hlater : encryptSecret c clear keyringValue (ascii "card-secret") iv = .ok later) :
    decryptSecret c later keyringValue (ascii "stock-entry") ≠
      decryptSecret c envelope keyringValue (ascii "stock-entry") := by
  have hstock : ∀ u ∈ ascii "stock-entry", u ≠ 0 ∧ u < 0x80 := ascii_of_all (by decide)
  have hcard : ∀ u ∈ ascii "card-secret", u ≠ 0 ∧ u < 0x80 := ascii_of_all (by decide)
  rw [hwritten.decrypts hc hk]
  obtain ⟨material, hmaterial, hrun⟩ := encryptSecret_ok (c := c) hk clear (ascii "card-secret") iv
  obtain rfl := ok.inj (hrun.symm.trans hlater)
  rw [decryptSecret_rejected hc hr hk hcarried hmaterial hcard hstock (by decide)]
  exact nofun

theorem Migrates.migratable (hw : AppWritten c keyring s) (h : Migrates c keyringValue limit keyring ivs s) :
    Migratable c keyringValue limit keyring s := by
  intro field r hmem purpose value hpurpose hv e he hstale
  have hcarried := h.carried hc hk hw hmem hpurpose hv he
  obtain ⟨n, hcurrent⟩ := h.current
  have hgone : r ∉ ((afterRotations c keyringValue limit ivs s n).rows field).rows := by
    intro hlast
    have hstaleRow : staleRow keyring field r = true := staleRow_iff.mpr ⟨purpose, value, hpurpose, hv, e, he, hstale⟩
    rw [hcurrent field r hlast] at hstaleRow
    cases hstaleRow
  obtain ⟨st, m, m', ivs', next, hrewritten⟩ := (h.calls hk n).rewritten hmem hgone
  obtain ⟨own, clear, iv, later, hown, hclear, hlater, hsame⟩ :=
    h.moved hc hk hcarried n hmem hrewritten hpurpose hv he hstale
  obtain ⟨text, hwritten⟩ := ((hw field r hmem purpose hpurpose).2 value hv).2 e he
  have hstock : field ≠ .column .stockEntries := by
    rintro rfl
    obtain ⟨spec, hspec, hcolumn, rfl⟩ := stage_column hrewritten.stage hrewritten.column
    have hcard : spec.purpose = ascii "card-secret" := by
      have hall : ∀ spec ∈ secretSpecs, spec.column = .stockEntries → spec.purpose = ascii "card-secret" := by
        unfold secretSpecs
        simp only [forall_mem_cons, not_mem_nil, false_implies, implies_true, and_true]
        decide
      exact hall spec hspec hcolumn
    obtain rfl : spec.purpose = own := Option.some.inj hown
    obtain rfl : ascii "stock-entry" = purpose := Option.some.inj hpurpose
    rw [hcard] at hlater
    exact stock_lost hc hr hk hcarried hwritten hlater hsame
  have hsel := (RotationStage.page_mem hrewritten.page).2
  obtain rfl := hrewritten.column
  have hreader : secretPurpose st.field r.key = some own :=
    (allStages_forReaders st hrewritten.stage r own hsel hown).resolve_left hstock
  obtain rfl := Option.some.inj (hpurpose.symm.trans hreader)
  refine ⟨hcarried, hstock, hrewritten.reached hw.formed hmem, fun reader text' hreader' htext => ?_, ?_⟩
  · obtain rfl := Option.some.inj (hpurpose.symm.trans hreader')
    obtain ⟨found, hfound, -, hopen⟩ := encryptSecret_current hc hk hcarried clear purpose iv
    obtain rfl := ok.inj (hfound.symm.trans hlater)
    rw [hopen, hclear] at hsame
    obtain rfl := ok.inj (hclear.symm.trans htext)
    exact ok.inj hsame
  · intro hfield hcapacity
    have hgrow := hrewritten.ran.reset hfield r hrewritten.page next hrewritten.rewrites (fun hvalue => ?_)
      ((hrewritten.before.kept.hasCapacity r.key).mpr hcapacity)
    · have hbefore := hrewritten.before.kept.generations
      have hafter := hrewritten.after.kept.generations
      have hsame := h.generations n
      omega
    · have harrived := hrewritten.arrived
      rw [← hvalue] at harrived
      exact hrewritten.left harrived

end

/-- Calls bring every secret of a store that the shop has written under the current key, and do nothing else to
it, if and only if the store's stale secrets can be moved. -/
theorem migrates_iff (hc : c.RoundTrips) (hr : RejectsPurpose c) (hk : parseKeyring keyringValue = .ok keyring)
    (hlimit : 0 < limit) (ivs : Nat → SecretField → String → Utf16 → Vector UInt8 12) {s : SecretStore}
    (hw : AppWritten c keyring s) :
    Migrates c keyringValue limit keyring ivs s ↔ Migratable c keyringValue limit keyring s := by
  constructor
  · intro h
    exact h.migratable hc hr hk hw
  · intro h
    exact Ready.migrates hc hk hlimit ⟨hw, h⟩

theorem pairs_encode (us : Utf16) (bytes : Bytes) : openCrypto.pairs
    (us.flatMap (fun u => [UInt8.ofNat (u.toNat / 256), UInt8.ofNat u.toNat]) ++ bytes) =
      us ++ openCrypto.pairs bytes := by
  induction us with
  | nil => rfl
  | cons u us ih =>
    have hlt := u.toNat_lt
    change openCrypto.pairs (_ :: _ :: (us.flatMap _ ++ bytes)) = u :: (us ++ openCrypto.pairs bytes)
    rw [openCrypto.pairs, ih]
    congr 1
    refine UInt16.toNat_inj.mp ?_
    simp only [UInt8.toNat_ofNat', UInt16.toNat_ofNat']
    omega

theorem toWellFormed_ascii_append {front : Utf16} (h : ∀ u ∈ front, u < 0x80) (back : Utf16) :
    toWellFormed (front ++ back) = front ++ toWellFormed back := by
  induction front with
  | nil => rfl
  | cons u front ih =>
    have hplain : (Json.isHighSurrogate u || Json.isLowSurrogate u) = false := by
      have hlt := UInt16.lt_iff_toNat_lt.mp (h u mem_cons_self)
      have hsmall : u.toNat < 128 := hlt
      simp only [Json.isHighSurrogate, Json.isLowSurrogate, Bool.or_eq_false_iff, Bool.and_eq_false_iff,
        decide_eq_false_iff_not, UInt16.le_iff_toNat_le]
      have h1 : (0xD800 : UInt16).toNat = 55296 := rfl
      have h2 : (0xDC00 : UInt16).toNat = 56320 := rfl
      omega
    rw [cons_append, toWellFormed_cons hplain, ih fun v hv => h v (mem_cons_of_mem _ hv), cons_append]

theorem openCrypto_rejectsPurpose : RejectsPurpose openCrypto := by
  intro material iv plain purpose purpose' hp hp' hne
  have hkey : ∀ p : Utf16, (∀ u ∈ p, u ≠ 0 ∧ u < 0x80) → toWellFormed (ascii "gmshop:" ++ p ++ 0 :: material) =
      ascii "gmshop:" ++ (p ++ 0 :: toWellFormed material) := by
    intro p hp
    have hascii : ∀ u ∈ ascii "gmshop:", u < 0x80 := fun u hu => (ascii_of_all (by decide) u hu).2
    have hzero : toWellFormed (0 :: material) = 0 :: toWellFormed material := toWellFormed_cons (by decide) material
    rw [append_assoc, toWellFormed_ascii_append hascii, toWellFormed_ascii_append fun u hu => (hp u hu).2, hzero]
  have hfirst : ∀ p rest : Utf16, (∀ u ∈ p, u ≠ 0 ∧ u < 0x80) → (p ++ 0 :: rest).takeWhile (· ≠ 0) = p := by
    intro p rest hp
    rw [takeWhile_append_of_pos fun u hu => decide_eq_true (hp u hu).1]
    simp
  refine if_neg fun hprefix => hne ?_
  obtain ⟨rest, hrest⟩ := isPrefixOf_iff_prefix.mp hprefix
  have htail : encryptionKey openCrypto material purpose' ++ (iv ++ rest) =
      encryptionKey openCrypto material purpose ++ (iv ++ plain) := by
    have hcipher : openCrypto.encrypt (encryptionKey openCrypto material purpose) iv plain =
        0 :: encryptionKey openCrypto material purpose ++ iv ++ plain := rfl
    rw [hcipher] at hrest
    simpa using hrest
  have hunits := congrArg openCrypto.pairs htail
  have hdecode : ∀ (p : Utf16) (bytes : Bytes), openCrypto.pairs (encryptionKey openCrypto material p ++ bytes) =
      toWellFormed (ascii "gmshop:" ++ p ++ 0 :: material) ++ openCrypto.pairs bytes :=
    fun p bytes => pairs_encode _ bytes
  rw [hdecode, hdecode, hkey purpose hp, hkey purpose' hp'] at hunits
  simp only [append_assoc, cons_append] at hunits
  have hwords := congrArg (takeWhile (· ≠ 0)) (append_cancel_left hunits)
  rw [hfirst _ _ hp, hfirst _ _ hp'] at hwords
  exact hwords.symm

/-- The credential of the old channel comes under the current key. -/
theorem migrates_oldChannel : Migrates openCrypto rawKeyring 10
    ⟨legacyKeyId, Record.empty.set legacyKeyId rawKeyring⟩ (fun _ _ _ _ => Vector.replicate 12 0) oldChannel := by
  obtain ⟨keyring, hkeyring⟩ : ∃ keyring, keyring = (⟨legacyKeyId, Record.empty.set legacyKeyId rawKeyring⟩ :
    SecretKeyring) := ⟨_, rfl⟩
  have hk : parseKeyring rawKeyring = .ok keyring := by
    rw [hkeyring]
    decide
  have hmaterial : keyring.material legacyKeyId = some rawKeyring := by
    rw [hkeyring]
    decide
  have hcarried : Carried keyring.current := by
    rw [hkeyring]
    exact ⟨by decide, by decide⟩
  have hwritten : Written openCrypto keyring (ascii "payment-credential") (ascii "old")
      (legacyEnvelope openCrypto (ascii "old") rawKeyring (Vector.replicate 12 0)) := .legacy _ hmaterial
  have hrow : ∀ field, ∀ r ∈ (oldChannel.rows field).rows, field = .column .paymentChannels ∧
      r.value = some (legacyEnvelope openCrypto (ascii "old") rawKeyring (Vector.replicate 12 0)) := by
    intro field r hr
    unfold oldChannel at hr
    dsimp only at hr
    split at hr
    · next hfield =>
      rw [mem_singleton.mp hr]
      exact ⟨hfield, rfl⟩
    · cases hr
  rw [← hkeyring]
  refine (migrates_iff openCrypto_roundTrips openCrypto_rejectsPurpose hk (by decide) _ ?_).mpr ?_
  · intro field r hr purpose hpurpose
    obtain ⟨rfl, hv⟩ := hrow field r hr
    refine ⟨by rintro ⟨⟩, fun value hvalue => ⟨rfl, ?_⟩⟩
    obtain rfl := Option.some.inj (hvalue.symm.trans hv)
    obtain rfl : ascii "payment-credential" = purpose := Option.some.inj hpurpose
    intro e he
    rw [mem_singleton.mp he]
    exact ⟨_, hwritten⟩
  · intro field r hr purpose value hpurpose hvalue e he _
    obtain ⟨rfl, hv⟩ := hrow field r hr
    obtain rfl := Option.some.inj (hvalue.symm.trans hv)
    rw [mem_singleton.mp he]
    refine ⟨hcarried, by decide, fun v hv' => ?_, fun own text hown htext => ?_, by rintro ⟨⟩⟩
    · obtain rfl := Option.some.inj (hv'.symm.trans hv)
      rw [hkeyring]
      decide
    · obtain rfl : ascii "payment-credential" = own := Option.some.inj hown
      rw [hwritten.decrypts openCrypto_roundTrips hk, ok.injEq] at htext
      rw [← htext]
      decide

/-! ## A stock entry -/

def longRawKeyring : Utf16 := ascii "0123456789abcdef0123456789abcdef"

def oldStock : SecretStore where
  rows field := if field = .column .stockEntries then
      Table.of [⟨"e1", (encryptSecret openCrypto (ascii "code") longRawKeyring SecretColumn.stockEntries.purpose
        (Vector.replicate 12 0)).toOption, false, none, none⟩] ⟨List.pairwise_singleton .., fun _ _ => rfl⟩
    else .empty
  capacity := .empty

/-- A call ends with an exception at a stock entry that was made under the earlier key. -/
theorem stock_entry_stops_calls : ∃ rotated keyring,
    rotateSecretKeyring longRawKeyring (Vector.replicate 32 7) = .ok rotated ∧
      parseKeyring rotated = .ok keyring ∧ AppWritten openCrypto keyring oldStock ∧
      openCrypto.RoundTrips ∧ RejectsPurpose openCrypto ∧
      ((progressivelyReencryptSecrets openCrypto rotated (fun _ _ _ => Vector.replicate 12 2) 10).alone oldStock).1 =
        .error (.thrown .platform) ∧
      ¬ Migrates openCrypto rotated 10 keyring (fun _ _ _ _ => Vector.replicate 12 2) oldStock := by
  obtain ⟨rotated, hrotated⟩ : ∃ rotated, rotateSecretKeyring longRawKeyring (Vector.replicate 32 7) = .ok rotated :=
    ⟨_, rfl⟩
  obtain ⟨keyring, hkeyring⟩ : ∃ keyring, keyring = (⟨ascii "k1", (Record.empty.set legacyKeyId longRawKeyring).set
      (ascii "k1") (randomKeyMaterial (Vector.replicate 32 7))⟩ : SecretKeyring) := ⟨_, rfl⟩
  have hk : parseKeyring rotated = .ok keyring := by
    obtain rfl := ok.inj hrotated
    rw [hkeyring]
    decide_cbv
  have hmaterial : keyring.material legacyKeyId = some longRawKeyring := by
    rw [hkeyring]
    decide
  have hthrown : ((progressivelyReencryptSecrets openCrypto rotated (fun _ _ _ => Vector.replicate 12 2) 10).alone
      oldStock).1 = .error (.thrown .platform) := by
    obtain rfl := ok.inj hrotated
    decide_cbv
  refine ⟨rotated, keyring, hrotated, hk, ?_, openCrypto_roundTrips, openCrypto_rejectsPurpose, hthrown, fun h => ?_⟩
  · intro field r hr purpose hpurpose
    unfold oldStock at hr
    dsimp only at hr
    split at hr
    · next hfield =>
      subst hfield
      rw [mem_singleton.mp hr]
      refine ⟨by rintro ⟨⟩, fun value hvalue => ⟨rfl, fun e he => ⟨ascii "code", ?_⟩⟩⟩
      obtain rfl : ascii "stock-entry" = purpose := Option.some.inj hpurpose
      obtain rfl := Option.some.inj hvalue
      rw [mem_singleton.mp he]
      exact .versioned _ hmaterial ⟨by decide, by decide⟩
    · cases hr
  · obtain ⟨rewritten, hrun⟩ := h.returns 0
    rw [afterRotations, hthrown] at hrun
    cases hrun

end Gmshop
