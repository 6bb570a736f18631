import GmshopEdge.Secrets.Stages

/-!
# Progressive re-encryption reaches every secret

From a store that the shop has written, sequential calls bring every secret under the current key, change
nothing but envelopes and keep the texts: `Migrates`.

Whether they do is decided by the stale secrets of the first store (`Migratable`). A stale stock entry ends
the call or loses its text, since the rotation has another purpose for it than its readers; an envelope whose
key id LIKE takes for the current one is never selected; the pages of the maps and of the sign-in providers
always begin with the same rows; a byte-order mark in front of a text is dropped; and a new content of a
delivery record resets the sale capacity of its component.
-/

namespace Gmshop

open List hiding Vector
open Sql Utf16

/-! ## The property -/

inductive Written (c : WebCrypto) (keyring : SecretKeyring) (purpose text : Utf16) : Utf16 → Prop
  | versioned {id material : Utf16} (iv : Vector UInt8 12) (key : keyring.material id = some material)
      (carried : Carried id) :
      Written c keyring purpose text ([unit '.'].intercalate [envelopeVersion, id, toBase64 c iv.toList,
        toBase64 c (c.encrypt (encryptionKey c material purpose) iv.toList (c.encode text))])
  | legacy {material : Utf16} (iv : Vector UInt8 12) (key : keyring.material legacyKeyId = some material) :
      Written c keyring purpose text (legacyEnvelope c text material iv)

def writtenEntry (envelope : Utf16) : SecretEntry where
  properties := ⟨[(ascii "envelope", .str envelope), (ascii "keyVersion", .num ⟨false, 1, 0⟩)], by
    simp only [List.map_cons, List.map_nil]
    decide⟩
  envelope := envelope

def SecretField.text (field : SecretField) (secrets : List (Utf16 × Utf16)) : Utf16 :=
  match field with
  | .column _ => (secrets.head?.map Prod.snd).getD []
  | .orderInputs => printSecretMap (secrets.map fun e => (e.1, writtenEntry e.2))
  | .jobInputs => printSecretMap (secrets.map fun e => (e.1, writtenEntry e.2))
  | .settings => Json.print (.str ((secrets.head?.map Prod.snd).getD []))

def SecretField.Formed (field : SecretField) (value : Utf16) : Prop := value = field.text (secretsIn field value)

def AppWritten (c : WebCrypto) (keyring : SecretKeyring) (s : SecretStore) : Prop :=
  ∀ field, ∀ r ∈ (s.rows field).rows, ∀ purpose, secretPurpose field r.key = some purpose →
    (field = .settings → r.isSecret = true) ∧ ∀ value, r.value = some value →
      field.Formed value ∧ ∀ e ∈ secretsIn field value, ∃ text, Written c keyring purpose text e.2

def Alongside (R : SecretField → SecretRow → SecretRow → Prop) (s t : SecretStore) : Prop :=
  ∀ field, List.Forall₂ (R field) (s.rows field).rows (t.rows field).rows

def OnlyEnvelopes (field : SecretField) (r r' : SecretRow) : Prop :=
  r'.rest = r.rest ∧ (r'.value = r.value ∨ ∃ value next, r.value = some value ∧ r'.value = some next ∧
    field.Formed value ∧ field.Formed next ∧
      (secretsIn field next).map Prod.fst = (secretsIn field value).map Prod.fst)

def SameTexts (c : WebCrypto) (keyring : Utf16) (field : SecretField) (r r' : SecretRow) : Prop :=
  r'.key = r.key ∧ readSecrets c keyring field r'.key r'.value = readSecrets c keyring field r.key r.value

instance (keyring : SecretKeyring) (envelope : Utf16) : Decidable (UnderCurrentKey keyring envelope) :=
  inferInstanceAs (Decidable (_ ∧ _))

def staleRow (keyring : SecretKeyring) (field : SecretField) (r : SecretRow) : Bool :=
  match r.value, secretPurpose field r.key with
  | some value, some _ => (secretsIn field value).any fun e => !decide (UnderCurrentKey keyring e.2)
  | _, _ => false

section

variable (c : WebCrypto) (keyringValue : Utf16) (limit : Nat)

def afterRotations (ivs : Nat → SecretField → String → Utf16 → Vector UInt8 12) (s : SecretStore) : Nat → SecretStore
  | 0 => s
  | n + 1 => ((progressivelyReencryptSecrets c keyringValue (ivs n) limit).alone (afterRotations ivs s n)).2

structure Migrates (keyring : SecretKeyring) (ivs : Nat → SecretField → String → Utf16 → Vector UInt8 12)
    (s : SecretStore) : Prop where
  returns : ∀ n, ∃ rewritten, ((progressivelyReencryptSecrets c keyringValue (ivs n) limit).alone
    (afterRotations c keyringValue limit ivs s n)).1 = .ok rewritten
  envelopes : ∀ n, (afterRotations c keyringValue limit ivs s (n + 1)).capacity =
      (afterRotations c keyringValue limit ivs s n).capacity ∧
    Alongside OnlyEnvelopes (afterRotations c keyringValue limit ivs s n)
      (afterRotations c keyringValue limit ivs s (n + 1))
  current : ∃ n, ∀ field, ∀ r ∈ ((afterRotations c keyringValue limit ivs s n).rows field).rows,
    staleRow keyring field r = false
  readable : ∀ n, Alongside (SameTexts c keyringValue) s (afterRotations c keyringValue limit ivs s n)

/-! ## The condition -/

def Reached (current : Utf16) (s : SecretStore) (field : SecretField) (r : SecretRow) : Prop :=
  match field with
  | .column _ => ∀ value, r.value = some value → likeCurrent current value = false
  | .orderInputs => r ∈ (reencryptJsonSecretMap limit .orderInputs (ascii "order-input")).page s
  | .jobInputs => r ∈ (reencryptJsonSecretMap limit .jobInputs (ascii "build-input")).page s
  | .settings => authProviderId r.key ≠ none → r ∈ (reencryptAuthProviderSecrets limit).page s

structure Movable (keyring : SecretKeyring) (s : SecretStore) (field : SecretField) (r : SecretRow)
    (envelope : Utf16) : Prop where
  carried : Carried keyring.current
  purpose : field ≠ .column .stockEntries
  reached : Reached limit keyring.current s field r
  plain : ∀ purpose text, secretPurpose field r.key = some purpose →
    decryptSecret c envelope keyringValue purpose = .ok text → plaintext text = text
  capacity : field = .column .deliveryRecords → ¬ s.hasCapacity r.key

def Migratable (keyring : SecretKeyring) (s : SecretStore) : Prop :=
  ∀ field, ∀ r ∈ (s.rows field).rows, ∀ purpose value, secretPurpose field r.key = some purpose →
    r.value = some value → ∀ e ∈ secretsIn field value, ¬ UnderCurrentKey keyring e.2 →
      Movable c keyringValue limit keyring s field r e.2

end

/-! ## Values -/

variable {c : WebCrypto} {keyringValue : Utf16} {keyring : SecretKeyring} {limit : Nat}

theorem secretEntry_written (envelope : Utf16) :
    secretEntry (.obj (writtenEntry envelope).properties.entries) = some (writtenEntry envelope) := by
  have henvelope : (writtenEntry envelope).properties.get (ascii "envelope") = some (.str envelope) :=
    Record.get_eq_some_iff.mpr mem_cons_self
  have hversion : (writtenEntry envelope).properties.get (ascii "keyVersion") = some (.num ⟨false, 1, 0⟩) :=
    Record.get_eq_some_iff.mpr (mem_cons_of_mem _ mem_cons_self)
  rw [secretEntry, Json.Value.properties, Record.ofEntries_entries]
  rfl

theorem nodup_secretsIn (field : SecretField) (value : Utf16) : ((secretsIn field value).map Prod.fst).Nodup := by
  have hmap : ∀ r : Record Utf16 SecretEntry, ((r.entries.map fun e => (e.1, e.2.envelope)).map Prod.fst).Nodup := by
    intro r
    rw [map_map]
    exact r.nodup
  cases field with
  | column column => exact nodup_singleton _
  | orderInputs => exact hmap _
  | jobInputs => exact hmap _
  | settings =>
    unfold secretsIn
    cases parseSecretText value with
    | none => exact nodup_nil
    | some envelope => exact nodup_singleton _

variable {secrets : List (Utf16 × Utf16)} {next purpose value : Utf16} {iv : Utf16 → Vector UInt8 12}
  {row : SecretRow} {ivs : SecretField → String → Utf16 → Vector UInt8 12} {field : SecretField}

theorem parseSecretMap_written (h : (secrets.map Prod.fst).Nodup) :
    (parseSecretMap (printSecretMap (secrets.map fun e => (e.1, writtenEntry e.2)))).entries =
      secrets.map fun e => (e.1, writtenEntry e.2) := by
  refine parseSecretMap_print ?_ fun e he => ?_
  · rw [map_map]
    exact h
  · obtain ⟨secret, -, rfl⟩ := mem_map.mp he
    exact secretEntry_written secret.2

theorem rewriteEntry_written {envelope : Utf16} {iv : Vector UInt8 12} {next : Option SecretEntry}
    (h : rewriteEntry c keyringValue purpose iv (writtenEntry envelope) = .ok next) :
    ∃ later, next.getD (writtenEntry envelope) = writtenEntry later := by
  unfold rewriteEntry at h
  cases hr : reencryptSecret c (writtenEntry envelope).envelope keyringValue purpose iv with
  | error e => simp [hr, bind, Except.bind] at h
  | ok again =>
    simp only [hr, bind, Except.bind, pure, Except.pure, Except.ok.injEq] at h
    subst h
    cases again with
    | none => exact ⟨envelope, rfl⟩
    | some later =>
      refine ⟨later, ?_⟩
      congr 1

theorem rewriteEntries_written {entries : List (Utf16 × SecretEntry)} {changed : Bool}
    (h : rewriteEntries c keyringValue purpose iv (secrets.map fun e => (e.1, writtenEntry e.2)) =
      .ok (entries, changed)) :
    ∃ later : List (Utf16 × Utf16), entries = later.map (fun e => (e.1, writtenEntry e.2)) ∧
      later.map Prod.fst = secrets.map Prod.fst := by
  induction secrets generalizing entries changed with
  | nil =>
    simp only [map_nil, rewriteEntries, Except.ok.injEq, Prod.mk.injEq] at h
    exact ⟨[], h.1.symm, rfl⟩
  | cons secret secrets ih =>
    obtain ⟨name, envelope⟩ := secret
    rw [map_cons, rewriteEntries] at h
    cases hone : rewriteEntry c keyringValue purpose (iv name) (writtenEntry envelope) with
    | error e => simp [hone, bind, Except.bind] at h
    | ok next =>
      cases hrest : rewriteEntries c keyringValue purpose iv (secrets.map fun e => (e.1, writtenEntry e.2)) with
      | error e => simp [hone, hrest, bind, Except.bind] at h
      | ok rest =>
        simp only [hone, hrest, bind, Except.bind, pure, Except.pure, Except.ok.injEq, Prod.mk.injEq] at h
        obtain ⟨later, hlater, hnames⟩ := ih hrest
        obtain ⟨again, hagain⟩ := rewriteEntry_written hone
        refine ⟨(name, again) :: later, ?_, ?_⟩
        · rw [← h.1, hagain, hlater]
          rfl
        · rw [map_cons, map_cons, hnames]

section

variable (hv : row.value = some value)
include hv

theorem formed_secretMap
    (hform : value = printSecretMap ((secretsIn .orderInputs value).map fun e => (e.1, writtenEntry e.2)))
    (h : rewriteSecretMap c keyringValue purpose iv row = .ok (some next)) :
    next = printSecretMap ((secretsIn .orderInputs next).map fun e => (e.1, writtenEntry e.2)) := by
  have hentries : (parseSecretMap value).entries =
      (secretsIn .orderInputs value).map fun e => (e.1, writtenEntry e.2) := by
    conv_lhs => rw [hform]
    exact parseSecretMap_written (nodup_secretsIn .orderInputs value)
  rw [rewriteSecretMap, hv] at h
  simp only [hentries] at h
  cases hr : rewriteEntries c keyringValue purpose iv
      ((secretsIn .orderInputs value).map fun e => (e.1, writtenEntry e.2)) with
  | error e => simp [hr, bind, Except.bind] at h
  | ok result =>
    obtain ⟨entries, changed⟩ := result
    simp only [hr, bind, Except.bind, pure, Except.pure, Except.ok.injEq] at h
    split at h
    · obtain ⟨later, rfl, hnames⟩ := rewriteEntries_written hr
      have hnodup : (later.map Prod.fst).Nodup := by
        rw [hnames]
        exact nodup_secretsIn .orderInputs value
      rw [← Option.some.inj h]
      have hsecrets : secretsIn .orderInputs (printSecretMap (later.map fun e => (e.1, writtenEntry e.2))) = later := by
        rw [secretsIn, parseSecretMap_written hnodup, map_map]
        exact map_id' later
      rw [hsecrets]
    · cases h

theorem formed_rewrite (hform : field.Formed value)
    (h : rewriteValue c keyringValue ivs field purpose row = .ok (some next)) : field.Formed next := by
  cases field with
  | column column => rfl
  | orderInputs => exact formed_secretMap hv hform h
  | jobInputs => exact formed_secretMap hv hform h
  | settings =>
    rw [rewriteValue, rewriteSetting, hv, Option.bind_some] at h
    cases hp : parseSecretText value with
    | none => simp [hp] at h
    | some envelope =>
      simp only [hp, bind, Except.bind] at h
      cases hr : reencryptSecret c envelope keyringValue purpose (ivs .settings row.key []) with
      | error e => simp [hr] at h
      | ok again =>
        simp only [hr, pure, Except.pure, Except.ok.injEq, Option.map_eq_some_iff] at h
        obtain ⟨later, -, rfl⟩ := h
        rw [SecretField.Formed, secretsIn_setting]
        rfl

theorem rewriteValue_ok
    (h : ∀ e ∈ secretsIn field value, ∀ iv, ∃ next, reencryptSecret c e.2 keyringValue purpose iv = .ok next) :
    ∃ next, rewriteValue c keyringValue ivs field purpose row = .ok next := by
  have hmap : ∀ iv : Utf16 → Vector UInt8 12, (∀ e ∈ (parseSecretMap value).entries, ∀ iv, ∃ next,
      reencryptSecret c e.2.envelope keyringValue purpose iv = .ok next) →
      ∃ next, rewriteSecretMap c keyringValue purpose iv row = .ok next := by
    intro iv hall
    rw [rewriteSecretMap, hv]
    have hentries : ∀ entries : List (Utf16 × SecretEntry), (∀ e ∈ entries, ∀ iv, ∃ next,
        reencryptSecret c e.2.envelope keyringValue purpose iv = .ok next) →
        ∃ result, rewriteEntries c keyringValue purpose iv entries = .ok result := by
      intro entries
      induction entries with
      | nil => exact fun _ => ⟨_, rfl⟩
      | cons e entries ih =>
        intro hall
        obtain ⟨name, entry⟩ := e
        obtain ⟨next, hnext⟩ := hall (name, entry) mem_cons_self (iv name)
        obtain ⟨rest, hrest⟩ := ih fun e he => hall e (mem_cons_of_mem _ he)
        simp [rewriteEntries, rewriteEntry, hnext, hrest, bind, Except.bind, pure, Except.pure]
    obtain ⟨result, hresult⟩ := hentries _ hall
    simp [hresult, bind, Except.bind, pure, Except.pure]
  cases field with
  | column column =>
    rw [rewriteValue, rewriteEnvelope, hv]
    exact h ([], value) mem_cons_self _
  | orderInputs => exact hmap _ fun e he => h (e.1, e.2.envelope) (mem_map.mpr ⟨e, he, rfl⟩)
  | jobInputs => exact hmap _ fun e he => h (e.1, e.2.envelope) (mem_map.mpr ⟨e, he, rfl⟩)
  | settings =>
    rw [rewriteValue, rewriteSetting, hv, Option.bind_some]
    cases hp : parseSecretText value with
    | none => exact ⟨none, rfl⟩
    | some envelope =>
      obtain ⟨next, hnext⟩ := h ([], envelope) (by simp [secretsIn, hp]) (ivs .settings row.key [])
      simp [hnext, bind, Except.bind, pure, Except.pure]

end

end Gmshop
