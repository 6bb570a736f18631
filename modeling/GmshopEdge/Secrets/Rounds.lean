import GmshopEdge.Secrets.Migration

/-!
# One call on a migratable store

Where every stale secret can be moved (`Ready`), each stage runs to its end, brings its page under the current
key and leaves such a store (`Ready.stage`). A call goes on as long as a stale row is left, and fewer are
left after it.
-/

namespace Gmshop

open List hiding Vector
open Sql Utf16 Except

variable {c : WebCrypto} {keyringValue : Utf16} {keyring : SecretKeyring} {limit : Nat}
  {ivs : SecretField → String → Utf16 → Vector UInt8 12}

/-! ## Envelopes -/

variable {envelope purpose text value : Utf16} {iv : Vector UInt8 12} {r r' : SecretRow} {field : SecretField}
  {R : SecretField → SecretRow → SecretRow → Prop} {s t u : SecretStore} {st : RotationStage} {α β : Type}
  {xs : List α} {ys : List β}

theorem Written.decrypts (hc : c.RoundTrips) (hk : parseKeyring keyringValue = .ok keyring)
    (h : Written c keyring purpose text envelope) :
    decryptSecret c envelope keyringValue purpose = .ok (plaintext text) := by
  cases h with
  | versioned iv hkey hcarried => exact decryptSecret_versioned hc hk hcarried hkey purpose text iv
  | legacy iv hkey => exact decryptSecret_legacy hc hk hkey purpose text iv

theorem written_encryptSecret (hk : parseKeyring keyringValue = .ok keyring)
    (hcurrent : Carried keyring.current) (h : encryptSecret c text keyringValue purpose iv = .ok envelope) :
    Written c keyring purpose text envelope := by
  obtain ⟨material, hmaterial, hrun⟩ := encryptSecret_ok (c := c) hk text purpose iv
  obtain rfl := ok.inj (hrun.symm.trans h)
  exact .versioned iv hmaterial hcurrent

theorem underCurrentKey_encryptSecret (hc : c.RoundTrips) (hk : parseKeyring keyringValue = .ok keyring)
    (hcurrent : Carried keyring.current) (h : encryptSecret c text keyringValue purpose iv = .ok envelope) :
    UnderCurrentKey keyring envelope := by
  obtain ⟨found, hfound, hunder, -⟩ := encryptSecret_current hc hk hcurrent text purpose iv
  rwa [← ok.inj (hfound.symm.trans h)]

theorem Reencrypted.cases (hk : parseKeyring keyringValue = .ok keyring) {later : Utf16}
    (h : Reencrypted c keyringValue purpose envelope later) :
    (UnderCurrentKey keyring envelope ∧ later = envelope) ∨ (¬ UnderCurrentKey keyring envelope ∧ ∃ clear iv,
        decryptSecret c envelope keyringValue purpose = .ok clear ∧
        encryptSecret c clear keyringValue purpose iv = .ok later) := by
  obtain ⟨iv, next, hrun, rfl⟩ := h
  obtain ⟨parsed, hparsed, hcases⟩ := reencryptSecret_cases hrun
  obtain rfl := ok.inj (hparsed.symm.trans hk)
  rcases hcases with ⟨hunder, rfl⟩ | ⟨clear, later, hstale, hclear, hlater, rfl⟩
  · exact Or.inl ⟨hunder, rfl⟩
  · exact Or.inr ⟨hstale, clear, iv, hclear, hlater⟩

/-! ## Stale rows -/

theorem staleRow_iff : staleRow keyring field r = true ↔
    ∃ purpose value, secretPurpose field r.key = some purpose ∧ r.value = some value ∧
      ∃ e ∈ secretsIn field value, ¬ UnderCurrentKey keyring e.2 := by
  unfold staleRow
  cases hv : r.value with
  | none => simp
  | some value =>
    cases hp : secretPurpose field r.key with
    | none => simp
    | some purpose => simp

theorem rewriteValue_current (hk : parseKeyring keyringValue = .ok keyring) {row : SecretRow}
    (hv : row.value = some value) (h : ∀ e ∈ secretsIn field value, UnderCurrentKey keyring e.2) :
    rewriteValue c keyringValue ivs field purpose row = .ok none := by
  have hmap : ∀ iv : Utf16 → Vector UInt8 12,
      (∀ e ∈ (parseSecretMap value).entries, UnderCurrentKey keyring e.2.envelope) →
      rewriteSecretMap c keyringValue purpose iv row = .ok none := by
    intro iv hall
    have hentries : ∀ entries : List (Utf16 × SecretEntry), (∀ e ∈ entries, UnderCurrentKey keyring e.2.envelope) →
        ∃ later, rewriteEntries c keyringValue purpose iv entries = .ok (later, false) := by
      intro entries
      induction entries with
      | nil => exact fun _ => ⟨[], rfl⟩
      | cons e entries ih =>
        intro hall
        obtain ⟨name, entry⟩ := e
        have hone := reencryptSecret_current (c := c) hk (hall (name, entry) mem_cons_self) purpose (iv name)
        obtain ⟨rest, hrest⟩ := ih fun e he => hall e (mem_cons_of_mem _ he)
        simp [rewriteEntries, rewriteEntry, hone, hrest, bind, Except.bind, pure, Except.pure]
    obtain ⟨later, hlater⟩ := hentries _ hall
    rw [rewriteSecretMap, hv]
    simp [hlater, bind, Except.bind, pure, Except.pure]
  cases field with
  | column column =>
    rw [rewriteValue, rewriteEnvelope, hv]
    exact reencryptSecret_current hk (h ([], value) mem_cons_self) purpose _
  | orderInputs => exact hmap _ fun e he => h (e.1, e.2.envelope) (mem_map.mpr ⟨e, he, rfl⟩)
  | jobInputs => exact hmap _ fun e he => h (e.1, e.2.envelope) (mem_map.mpr ⟨e, he, rfl⟩)
  | settings =>
    rw [rewriteValue, rewriteSetting, hv, Option.bind_some]
    cases hp : parseSecretText value with
    | none => rfl
    | some envelope =>
      have hone := reencryptSecret_current (c := c) hk (h ([], envelope) (by simp [secretsIn, hp])) purpose
        (ivs .settings row.key [])
      simp [hone, bind, Except.bind, pure, Except.pure]

/-! ## Rows side by side -/

theorem StageRan.alongside (h : StageRan c keyringValue ivs st s t)
    (hsame : ∀ field, ∀ r ∈ (s.rows field).rows, R field r r)
    (hstep : ∀ r ∈ st.page s, ∀ next, st.rewrite c keyringValue ivs r = .ok (some next) →
      R st.field r { r with value := some next }) : Alongside R s t := by
  intro field
  by_cases hfield : field = st.field
  · subst hfield
    rw [h.column, forall₂_map_right_iff, forall₂_same]
    intro r hr
    unfold RotationStage.applied
    split
    · next hpage =>
      split
      · next next hnext => exact hstep r hpage next hnext
      · exact hsame _ r hr
    · exact hsame _ r hr
  · rw [h.others field hfield, forall₂_same]
    exact fun r hr => hsame field r hr

theorem forall₂_trans {R : α → α → Prop} (hR : ∀ a b d, R a b → R b d → R a d) {ys zs : List α}
    (h : List.Forall₂ R xs ys) (h' : List.Forall₂ R ys zs) : List.Forall₂ R xs zs := by
  induction h generalizing zs with
  | nil => exact h'
  | cons hab _ ih =>
    cases h' with
    | cons hbd hrest => exact .cons (hR _ _ _ hab hbd) (ih hrest)

theorem forall₂_left {R : α → β → Prop} (h : List.Forall₂ R xs ys) : ∀ x ∈ xs, ∃ y ∈ ys, R x y := by
  induction h with
  | nil => exact fun x hx => nomatch hx
  | cons hab _ ih =>
    intro x hx
    rcases mem_cons.mp hx with rfl | hx
    · exact ⟨_, mem_cons_self, hab⟩
    · obtain ⟨y, hy, hxy⟩ := ih x hx
      exact ⟨y, mem_cons_of_mem _ hy, hxy⟩

theorem forall₂_right {R : α → β → Prop} (h : List.Forall₂ R xs ys) : ∀ y ∈ ys, ∃ x ∈ xs, R x y := by
  intro y hy
  exact forall₂_left (List.Forall₂.flip h) y hy

theorem Alongside.trans (hR : ∀ field a b d, R field a b → R field b d → R field a d) (h : Alongside R s t)
    (h' : Alongside R t u) : Alongside R s u :=
  fun field => forall₂_trans (hR field) (h field) (h' field)

theorem Alongside.refl (hR : ∀ field a, R field a a) (s : SecretStore) : Alongside R s s :=
  fun field => forall₂_same.mpr fun r _ => hR field r

theorem OnlyEnvelopes.trans (field : SecretField) (a b d : SecretRow) (h : OnlyEnvelopes field a b)
    (h' : OnlyEnvelopes field b d) : OnlyEnvelopes field a d := by
  obtain ⟨hrest, hvalue⟩ := h
  obtain ⟨hrest', hvalue'⟩ := h'
  refine ⟨hrest'.trans hrest, ?_⟩
  rcases hvalue with hsame | ⟨value, next, hv, hn, hform, hform', hnames⟩
  · rw [hsame] at hvalue'
    exact hvalue'
  · rcases hvalue' with hsame | ⟨value', next', hv', hn', -, hform'', hnames'⟩
    · exact Or.inr ⟨value, next, hv, hsame.trans hn, hform, hform', hnames⟩
    · obtain rfl := Option.some.inj (hn.symm.trans hv')
      exact Or.inr ⟨value, next', hv, hn', hform, hform'', hnames'.trans hnames⟩

theorem SameTexts.trans (field : SecretField) (a b d : SecretRow) (h : SameTexts c keyringValue field a b)
    (h' : SameTexts c keyringValue field b d) : SameTexts c keyringValue field a d :=
  ⟨h'.1.trans h.1, h'.2.trans h.2⟩

theorem Rewritten.names {secrets later : List (Utf16 × Utf16)}
    (h : Rewritten c keyringValue purpose secrets later) : later.map Prod.fst = secrets.map Prod.fst := by
  induction h with
  | nil => rfl
  | cons hab _ ih => rw [map_cons, map_cons, hab.1, ih]

/-! ## Pages -/

def RowsFormed (s : SecretStore) : Prop :=
  ∀ field, ∀ r ∈ (s.rows field).rows, (secretPurpose field r.key).isSome → ∀ value, r.value = some value →
    field.Formed value

variable (c keyringValue ivs) in
theorem applied_cases (st : RotationStage) (s : SecretStore) (r : SecretRow) :
    st.applied c keyringValue ivs s r = r ∨ (r ∈ st.page s ∧ ∃ next,
      st.rewrite c keyringValue ivs r = .ok (some next) ∧
        st.applied c keyringValue ivs s r = { r with value := some next }) := by
  unfold RotationStage.applied
  split
  · next hpage =>
    split
    · next next hnext => exact Or.inr ⟨hpage, next, hnext, rfl⟩
    · exact Or.inl rfl
  · exact Or.inl rfl

theorem applied_rest (st : RotationStage) (s : SecretStore) (r : SecretRow) :
    (st.applied c keyringValue ivs s r).rest = r.rest := by
  rcases applied_cases c keyringValue ivs st s r with h | ⟨-, next, -, h⟩ <;>
    rw [h]
  rfl

theorem StageRan.formed (h : StageRan c keyringValue ivs st s t) (hs : RowsFormed s) : RowsFormed t := by
  intro field r' hr' hcovered value' hv'
  by_cases hfield : field = st.field
  · subst hfield
    rw [h.column, mem_map] at hr'
    obtain ⟨r, hr, rfl⟩ := hr'
    rw [show (st.applied c keyringValue ivs s r).key = r.key from congrArg Prod.fst (applied_rest st s r)] at hcovered
    rcases applied_cases c keyringValue ivs st s r with
      hsame | ⟨-, next, hnext, hsame⟩
    · rw [hsame] at hv'
      exact hs _ r hr hcovered value' hv'
    · rw [hsame, Option.some.injEq] at hv'
      obtain ⟨value, purpose, hv, -, hrun, -⟩ := RotationStage.rewrite_some hnext
      rw [← hv']
      exact formed_rewrite hv (hs _ r hr hcovered value hv) hrun
  · rw [h.others field hfield] at hr'
    exact hs field r' hr' hcovered value' hv'

theorem formed_empty (hfield : field = .orderInputs ∨ field = .jobInputs) (h : field.Formed value) :
    value = ascii "\x7b\x7d" ↔ secretsIn field value = [] := by
  have hnil : field.text [] = ascii "\x7b\x7d" := by
    rcases hfield with rfl | rfl <;> rfl
  have hempty : secretsIn field (ascii "\x7b\x7d") = [] := by
    rcases hfield with rfl | rfl <;> decide
  constructor
  · intro heq
    rw [heq]
    exact hempty
  · intro heq
    rw [h, heq]
    exact hnil

def RotationStage.Steady (st : RotationStage) : Prop :=
  (∀ r r' : SecretRow, r'.rest = r.rest → st.selects r' = st.selects r) ∨
    ((st.field = .orderInputs ∨ st.field = .jobInputs) ∧
      st.selects = fun r => r.value.any fun value => value != ascii "\x7b\x7d")

theorem steady_orderInputs : (reencryptJsonSecretMap limit .orderInputs (ascii "order-input")).Steady :=
  Or.inr ⟨Or.inl rfl, rfl⟩

theorem steady_jobInputs : (reencryptJsonSecretMap limit .jobInputs (ascii "build-input")).Steady :=
  Or.inr ⟨Or.inr rfl, rfl⟩

theorem steady_auth : (reencryptAuthProviderSecrets limit).Steady := by
  refine Or.inl fun r r' h => ?_
  have hkey : r'.key = r.key := congrArg Prod.fst h
  have hsecret : r'.isSecret = r.isSecret := congrArg (·.2.1) h
  change (isAuthSecretKey r'.key && r'.isSecret) = (isAuthSecretKey r.key && r.isSecret)
  rw [hkey, hsecret]

theorem page_map {g : SecretRow → SecretRow} (h : (t.rows st.field).rows = (s.rows st.field).rows.map g)
    (hkey : ∀ r, (g r).key = r.key) (hsel : ∀ r ∈ (s.rows st.field).rows, st.selects (g r) = st.selects r) :
    st.page t = (st.page s).map g := by
  have hfilter : ((s.rows st.field).rows.map g).filter st.selects = ((s.rows st.field).rows.filter st.selects).map g := by
    rw [filter_map]
    refine congrArg (map g) (filter_congr fun r hr => ?_)
    exact hsel r hr
  unfold RotationStage.page
  rw [h, hfilter, map_take]
  congr 1
  refine (map_insertionSort (fun a b : SecretRow => a.key ≤ b.key) (fun a b : SecretRow => a.key ≤ b.key) g _
    fun a _ b _ => ?_).symm
  rw [hkey, hkey]

theorem StageRan.page_iff {steady : RotationStage} (h : StageRan c keyringValue ivs st s t)
    (hs : RowsFormed s) (hsteady : steady.Steady) (hr : r ∈ (s.rows steady.field).rows)
    (hr' : r' ∈ (t.rows steady.field).rows) (hkey : r'.key = r.key) :
    r' ∈ steady.page t ↔ r ∈ steady.page s := by
  obtain ⟨g, hrows, hgkey, hpage⟩ : ∃ g : SecretRow → SecretRow,
      (t.rows steady.field).rows = (s.rows steady.field).rows.map g ∧ (∀ x, (g x).key = x.key) ∧
        steady.page t = (steady.page s).map g := by
    by_cases hfield : steady.field = st.field
    · have hgkey : ∀ x, (st.applied c keyringValue ivs s x).key = x.key :=
        fun x => congrArg Prod.fst (applied_rest st s x)
      have hrows : (t.rows steady.field).rows = (s.rows steady.field).rows.map (st.applied c keyringValue ivs s) := by
        rw [hfield, h.column]
      refine ⟨st.applied c keyringValue ivs s, hrows, hgkey, page_map hrows hgkey fun x hx => ?_⟩
      rcases hsteady with hsel | ⟨hmap, hsel⟩
      · exact hsel x _ (applied_rest st s x)
      · rcases applied_cases c keyringValue ivs st s x with
          hsame | ⟨-, next, hnext, hsame⟩
        · rw [hsame]
        · obtain ⟨value, purpose, hv, -, hrun, hre⟩ := RotationStage.rewrite_some hnext
          have hcovered : (secretPurpose steady.field x.key).isSome := by
            rcases hmap with hmap | hmap <;> rw [hmap] <;> rfl
          have hform := hs _ x hx hcovered value hv
          rw [← hfield] at hrun hre
          have hform' := formed_rewrite hv hform hrun
          have hempty : next = ascii "\x7b\x7d" ↔ value = ascii "\x7b\x7d" := by
            rw [formed_empty hmap hform, formed_empty hmap hform', ← map_eq_nil_iff (f := Prod.fst),
              hre.names, map_eq_nil_iff]
          rw [hsame, hsel]
          simp only [hv, Option.any_some]
          rw [Bool.eq_iff_iff, bne_iff_ne, bne_iff_ne, ne_eq, ne_eq, hempty]
    · have hrows : (t.rows steady.field).rows = (s.rows steady.field).rows.map fun x => x := by
        rw [h.others _ hfield, map_id']
      exact ⟨fun x => x, hrows, fun _ => rfl, page_map hrows (fun _ => rfl) fun _ _ => rfl⟩
  rw [hpage, mem_map]
  constructor
  · rintro ⟨x, hx, rfl⟩
    rwa [← SecretStore.row_unique (RotationStage.page_mem hx).1 hr ((hgkey x).symm.trans hkey)]
  · intro hmem
    refine ⟨r, hmem, SecretStore.row_unique ?_ hr' ((hgkey r).trans hkey.symm)⟩
    rw [hrows]
    exact mem_map_of_mem hr

/-! ## One stage -/

structure Ready (c : WebCrypto) (keyringValue : Utf16) (limit : Nat) (keyring : SecretKeyring) (s : SecretStore) :
    Prop where
  written : AppWritten c keyring s
  migratable : Migratable c keyringValue limit keyring s

theorem AppWritten.formed (h : AppWritten c keyring s) : RowsFormed s := by
  intro field r hr hcovered value hv
  obtain ⟨purpose, hpurpose⟩ := Option.isSome_iff_exists.mp hcovered
  exact ((h field r hr purpose hpurpose).2 value hv).1

def allStages (limit : Nat) (current : Utf16) : List RotationStage := settingStages limit ++ columnStages limit current

theorem allStages_forReaders {current : Utf16} : ∀ st ∈ allStages limit current, st.ForReaders := by
  intro st hst
  rcases mem_append.mp hst with hst | hst
  · exact settingStages_forReaders limit st hst
  · exact columnStages_forReaders limit current st hst

variable (ivs) in
theorem Ready.rewritable (hc : c.RoundTrips) (hk : parseKeyring keyringValue = .ok keyring)
    (hs : Ready c keyringValue limit keyring s) (hst : st ∈ allStages limit keyring.current) :
    ∀ r ∈ st.page s, ∃ next, st.rewrite c keyringValue ivs r = .ok next := by
  intro r hr
  obtain ⟨hmem, hsel⟩ := RotationStage.page_mem hr
  unfold RotationStage.rewrite
  cases hp : st.purpose r.key with
  | none => exact ⟨none, rfl⟩
  | some purpose =>
    cases hv : r.value with
    | none => exact ⟨none, rewriteValue_none hv⟩
    | some value =>
      refine rewriteValue_ok hv fun e he iv => ?_
      by_cases hcurrent : UnderCurrentKey keyring e.2
      · exact ⟨none, reencryptSecret_current hk hcurrent purpose iv⟩
      have hcovered : ∃ reader, secretPurpose st.field r.key = some reader := by
        rcases allStages_forReaders st hst r purpose hsel hp with hfield | hreader
        · exact ⟨_, by rw [hfield]; rfl⟩
        · exact ⟨purpose, hreader⟩
      obtain ⟨reader, hreader⟩ := hcovered
      have hmovable := hs.migratable st.field r hmem reader value hreader hv e he hcurrent
      obtain rfl : purpose = reader := by
        have hsame := (allStages_forReaders st hst r purpose hsel hp).resolve_left hmovable.purpose
        exact Option.some.inj (hsame.symm.trans hreader)
      obtain ⟨text, hwritten⟩ := ((hs.written st.field r hmem purpose hreader).2 value hv).2 e he
      obtain ⟨later, hlater, -⟩ := encryptSecret_current hc hk hmovable.carried (plaintext text) purpose iv
      refine ⟨some later, ?_⟩
      simp only [reencryptSecret, hk, bind, Except.bind, pure, Except.pure, hwritten.decrypts hc hk, hlater]
      exact if_neg hcurrent

structure Moved (c : WebCrypto) (keyringValue : Utf16) (limit : Nat) (keyring : SecretKeyring) (s : SecretStore)
    (field : SecretField) (r : SecretRow) (next : Utf16) : Prop where
  envelopes : OnlyEnvelopes field r { r with value := some next }
  texts : SameTexts c keyringValue field r { r with value := some next }
  written : ∀ purpose, secretPurpose field r.key = some purpose →
    field.Formed next ∧ ∀ e ∈ secretsIn field next, ∃ text, Written c keyring purpose text e.2
  current : ∀ e ∈ secretsIn field next, UnderCurrentKey keyring e.2
  capacity : field = .column .deliveryRecords → ¬ s.hasCapacity r.key

theorem Ready.moved (hc : c.RoundTrips) (hk : parseKeyring keyringValue = .ok keyring)
    (hs : Ready c keyringValue limit keyring s) (hst : st ∈ allStages limit keyring.current)
    (hr : r ∈ st.page s) {next : Utf16} (h : st.rewrite c keyringValue ivs r = .ok (some next)) :
    Moved c keyringValue limit keyring s st.field r next := by
  obtain ⟨hmem, hsel⟩ := RotationStage.page_mem hr
  obtain ⟨value, purpose, hv, hp, hrun, hre⟩ := RotationStage.rewrite_some h
  -- some envelope is stale, since the value was rewritten
  obtain ⟨stale, hstale, hnot⟩ : ∃ e ∈ secretsIn st.field value, ¬ UnderCurrentKey keyring e.2 := by
    by_contra hall
    push Not at hall
    rw [rewriteValue_current hk hv hall] at hrun
    cases hrun
  have hcovered : ∃ reader, secretPurpose st.field r.key = some reader := by
    rcases allStages_forReaders st hst r purpose hsel hp with hfield | hreader
    · exact ⟨_, by rw [hfield]; rfl⟩
    · exact ⟨purpose, hreader⟩
  obtain ⟨reader, hreader⟩ := hcovered
  have hmovable := hs.migratable st.field r hmem reader value hreader hv stale hstale hnot
  obtain rfl : purpose = reader := by
    have hsame := (allStages_forReaders st hst r purpose hsel hp).resolve_left hmovable.purpose
    exact Option.some.inj (hsame.symm.trans hreader)
  obtain ⟨hform, hsecrets⟩ := (hs.written st.field r hmem purpose hreader).2 value hv
  have hform' := formed_rewrite hv hform hrun
  have hplain : ∀ e ∈ secretsIn st.field value, ¬ UnderCurrentKey keyring e.2 → ∀ text,
      decryptSecret c e.2 keyringValue purpose = .ok text → plaintext text = text := by
    intro e he hcurrent text htext
    exact (hs.migratable st.field r hmem purpose value hreader hv e he hcurrent).plain purpose text hreader htext
  have heach : ∀ b ∈ secretsIn st.field next, ∃ a ∈ secretsIn st.field value, a.1 = b.1 ∧
      Reencrypted c keyringValue purpose a.2 b.2 := forall₂_right hre
  refine ⟨⟨rfl, Or.inr ⟨value, next, hv, rfl, hform, hform', hre.names⟩⟩, ⟨rfl, ?_⟩, ?_, ?_, hmovable.capacity⟩
  · have htexts : (secretsIn st.field next).map (fun e => (e.1, decryptSecret c e.2 keyringValue purpose)) =
        (secretsIn st.field value).map fun e => (e.1, decryptSecret c e.2 keyringValue purpose) := by
      unfold Rewritten at hre
      generalize secretsIn st.field value = secrets at hre hplain
      generalize secretsIn st.field next = later at hre
      clear hsecrets heach hform hform' hstale
      induction hre with
      | nil => rfl
      | @cons a b _ _ hab _ ih =>
        obtain ⟨hname, hab⟩ := hab
        have hopen : decryptSecret c b.2 keyringValue purpose = decryptSecret c a.2 keyringValue purpose := by
          rcases hab.cases hk with ⟨-, hsame⟩ | ⟨hcurrent, clear, iv, hclear, hlater⟩
          · rw [hsame]
          · obtain ⟨found, hfound, -, hfoundOpen⟩ := encryptSecret_current hc hk hmovable.carried clear purpose iv
            obtain rfl := ok.inj (hfound.symm.trans hlater)
            rw [hfoundOpen, hclear, hplain a mem_cons_self hcurrent clear hclear]
        rw [map_cons, map_cons, hopen, ← hname, ih fun e he => hplain e (mem_cons_of_mem _ he)]
    simp only [readSecrets, hv, hreader]
    exact htexts
  · intro reader hreader'
    obtain rfl := Option.some.inj (hreader'.symm.trans hreader)
    refine ⟨hform', fun b hb => ?_⟩
    obtain ⟨a, ha, -, hab⟩ := heach b hb
    rcases hab.cases hk with ⟨-, hsame⟩ | ⟨-, clear, iv, -, hlater⟩
    · rw [hsame]
      exact hsecrets a ha
    · exact ⟨clear, written_encryptSecret hk hmovable.carried hlater⟩
  · intro b hb
    obtain ⟨a, ha, -, hab⟩ := heach b hb
    rcases hab.cases hk with ⟨hunder, hsame⟩ | ⟨-, clear, iv, -, hlater⟩
    · rw [hsame]
      exact hunder
    · exact underCurrentKey_encryptSecret hc hk hmovable.carried hlater

def Fresher (keyring : SecretKeyring) (field : SecretField) (r r' : SecretRow) : Prop :=
  r'.key = r.key ∧ (staleRow keyring field r' = true → r' = r)

theorem Fresher.trans (field : SecretField) (a b d : SecretRow) (h : Fresher keyring field a b)
    (h' : Fresher keyring field b d) : Fresher keyring field a d := by
  refine ⟨h'.1.trans h.1, fun hstale => ?_⟩
  have hd := h'.2 hstale
  rw [hd] at hstale ⊢
  exact h.2 hstale

theorem not_stale_of_current (hv : r.value = some value)
    (h : ∀ e ∈ secretsIn field value, UnderCurrentKey keyring e.2) : staleRow keyring field r = false := by
  rw [Bool.eq_false_iff, ne_eq, staleRow_iff]
  rintro ⟨purpose, value', -, hv', e, he, hnot⟩
  obtain rfl := Option.some.inj (hv.symm.trans hv')
  exact hnot (h e he)

structure Steps (c : WebCrypto) (keyringValue : Utf16) (keyring : SecretKeyring) (s t : SecretStore) : Prop where
  capacity : t.capacity = s.capacity
  envelopes : Alongside OnlyEnvelopes s t
  texts : Alongside (SameTexts c keyringValue) s t
  fresher : Alongside (Fresher keyring) s t

theorem Steps.refl (s : SecretStore) : Steps c keyringValue keyring s s where
  capacity := rfl
  envelopes := .refl (fun _ _ => ⟨rfl, Or.inl rfl⟩) s
  texts := .refl (fun _ _ => ⟨rfl, rfl⟩) s
  fresher := .refl (fun _ _ => ⟨rfl, fun _ => rfl⟩) s

theorem Steps.trans (h : Steps c keyringValue keyring s t) (h' : Steps c keyringValue keyring t u) :
    Steps c keyringValue keyring s u where
  capacity := h'.capacity.trans h.capacity
  envelopes := h.envelopes.trans OnlyEnvelopes.trans h'.envelopes
  texts := h.texts.trans SameTexts.trans h'.texts
  fresher := h.fresher.trans Fresher.trans h'.fresher

section

variable (hc : c.RoundTrips) (hk : parseKeyring keyringValue = .ok keyring) (hs : Ready c keyringValue limit keyring s) (hst : st ∈ allStages limit keyring.current) (h : StageRan c keyringValue ivs st s t)
include hc hk hs hst h

theorem Ready.stage : Ready c keyringValue limit keyring t ∧ Steps c keyringValue keyring s t := by
  have hmoved : ∀ r ∈ st.page s, ∀ next, st.rewrite c keyringValue ivs r = .ok (some next) →
      Moved c keyringValue limit keyring s st.field r next :=
    fun r hr next hnext => hs.moved hc hk hst hr hnext
  have hmoves : Alongside (fun field r r' => r' = r ∨
      ∃ next, r' = { r with value := some next } ∧ Moved c keyringValue limit keyring s field r next) s t :=
    h.alongside (fun _ _ _ => Or.inl rfl) fun r hr next hnext => Or.inr ⟨next, rfl, hmoved r hr next hnext⟩
  refine ⟨⟨?_, ?_⟩, ⟨h.capacity fun hfield r hr next hnext => (hmoved r hr next hnext).capacity hfield, ?_, ?_, ?_⟩⟩
  · intro field r' hr' purpose hpurpose
    obtain ⟨r, hr, rfl | ⟨next, rfl, hmove⟩⟩ := forall₂_right (hmoves field) r' hr'
    · exact hs.written field r' hr purpose hpurpose
    · refine ⟨(hs.written field r hr purpose hpurpose).1, fun value hv => ?_⟩
      rw [← Option.some.inj hv]
      exact hmove.written purpose hpurpose
  · intro field r' hr' purpose value hpurpose hv e he hnot
    obtain ⟨r, hr, rfl | ⟨next, rfl, hmove⟩⟩ := forall₂_right (hmoves field) r' hr'
    · obtain ⟨hcarried, hstock, hreached, hplain, hcapacity⟩ :=
        hs.migratable field r' hr purpose value hpurpose hv e he hnot
      refine ⟨hcarried, hstock, ?_, hplain, fun hfield => ?_⟩
      · cases field with
        | column column => exact hreached
        | orderInputs => exact (h.page_iff hs.written.formed steady_orderInputs hr hr' rfl).mpr hreached
        | jobInputs => exact (h.page_iff hs.written.formed steady_jobInputs hr hr' rfl).mpr hreached
        | settings =>
          exact fun hid => (h.page_iff hs.written.formed steady_auth hr hr' rfl).mpr (hreached hid)
      · rw [h.kept.hasCapacity]
        exact hcapacity hfield
    · rw [← Option.some.inj hv] at he
      exact absurd (hmove.current e he) hnot
  · exact h.alongside (fun _ _ _ => ⟨rfl, Or.inl rfl⟩) fun r hr next hnext => (hmoved r hr next hnext).envelopes
  · exact h.alongside (fun _ _ _ => ⟨rfl, rfl⟩) fun r hr next hnext => (hmoved r hr next hnext).texts
  · refine h.alongside (fun _ _ _ => ⟨rfl, fun _ => rfl⟩) fun r hr next hnext => ⟨rfl, fun hstale => ?_⟩
    rw [not_stale_of_current rfl (hmoved r hr next hnext).current] at hstale
    cases hstale

theorem Ready.page_current (hr : r ∈ st.page s) (hp : st.purpose r.key ≠ none)
    (hr' : r' ∈ (t.rows st.field).rows) (hkey : r'.key = r.key) : staleRow keyring st.field r' = false := by
  obtain ⟨next, hnext⟩ := hs.rewritable ivs hc hk hst r hr
  have hmem := (RotationStage.page_mem hr).1
  have happlied : r' = st.applied c keyringValue ivs s r := by
    refine SecretStore.row_unique hr' ?_ (hkey.trans (congrArg Prod.fst (applied_rest st s r)).symm)
    rw [h.column]
    exact mem_map_of_mem hmem
  cases next with
  | some next =>
    rw [happlied, RotationStage.applied, if_pos hr, hnext]
    exact not_stale_of_current rfl (hs.moved hc hk hst hr hnext).current
  | none =>
    rw [happlied, RotationStage.applied, if_pos hr, hnext]
    change staleRow keyring st.field r = false
    rw [Bool.eq_false_iff, ne_eq, staleRow_iff]
    rintro ⟨reader, value, hreader, hv, e, he, hnot⟩
    obtain ⟨purpose, hpurpose⟩ := Option.ne_none_iff_exists'.mp hp
    rw [RotationStage.rewrite, hpurpose] at hnext
    obtain ⟨later, hlater, hname, hre⟩ := forall₂_left (rewriteValue_secrets hv hnext) e he
    have hmovable := hs.migratable st.field r hmem reader value hreader hv e he hnot
    rcases hre.cases hk with ⟨hunder, -⟩ | ⟨-, clear, iv, -, hencrypted⟩
    · exact hnot hunder
    · -- the value was left, so that the envelope under its name is the stale one
      have hsame : later = e := inj_on_of_nodup_map (nodup_secretsIn st.field value) hlater he hname.symm
      rw [hsame] at hencrypted
      exact hnot (underCurrentKey_encryptSecret hc hk hmovable.carried hencrypted)

end

end Gmshop
