import GmshopEdge.Secrets.Progressive

/-!
# What a page makes of a value

A stage re-encrypts every envelope of a value under its name and changes nothing else of it
(`rewrite_secrets`). A re-encrypted envelope opens to the text of the one before, under the purpose it was
re-encrypted for (`Reencrypted.decrypts`).
-/

namespace Gmshop

open List hiding Vector
open Sql Utf16 Option Prod

variable {c : WebCrypto} {keyring : Utf16}

/-! ## Envelopes -/

/-- What `reencryptSecret` leaves in the place of an envelope. -/
def Reencrypted (c : WebCrypto) (keyring purpose envelope later : Utf16) : Prop :=
  ∃ iv next, reencryptSecret c envelope keyring purpose iv = .ok next ∧ later = next.getD envelope

variable {next : Option Utf16} {envelope value : Utf16} {iv : Vector UInt8 12} {row : SecretRow}
  {entry : SecretEntry} {entries : List (Utf16 × SecretEntry)} {field : SecretField} {key : String}
  {id : List Char} {st : RotationStage}

theorem reencryptSecret_cases {keyring purpose : Utf16}
    (h : reencryptSecret c envelope keyring purpose iv = .ok next) :
    ∃ parsed, parseKeyring keyring = .ok parsed ∧ ((UnderCurrentKey parsed envelope ∧ next = none) ∨
        ∃ clear later, ¬ UnderCurrentKey parsed envelope ∧ decryptSecret c envelope keyring purpose = .ok clear ∧
          encryptSecret c clear keyring purpose iv = .ok later ∧ next = some later) := by
  unfold reencryptSecret at h
  cases hk : parseKeyring keyring with
  | error e => simp [hk, bind, Except.bind] at h
  | ok parsed =>
    refine ⟨parsed, rfl, ?_⟩
    simp only [hk, bind, Except.bind, pure, Except.pure] at h
    split at h
    · next hcurrent =>
      rw [Except.ok.injEq] at h
      exact Or.inl ⟨hcurrent, h.symm⟩
    · next hcurrent =>
      cases hd : decryptSecret c envelope keyring purpose with
      | error e => simp [hd] at h
      | ok clear =>
        cases he : encryptSecret c clear keyring purpose iv with
        | error e => simp [hd, he] at h
        | ok later =>
          simp only [hd, he, Except.ok.injEq] at h
          exact Or.inr ⟨clear, later, hcurrent, rfl, he, h.symm⟩

theorem Reencrypted.decrypts (hc : c.RoundTrips) {purpose later : Utf16}
    (h : Reencrypted c keyring purpose envelope later)
    (hcurrent : ∀ parsed, parseKeyring keyring = .ok parsed → Carried parsed.current)
    (hplain : ∀ text, decryptSecret c envelope keyring purpose = .ok text → plaintext text = text) :
    decryptSecret c later keyring purpose = decryptSecret c envelope keyring purpose := by
  obtain ⟨iv, next, hrun, rfl⟩ := h
  obtain ⟨parsed, hk, ⟨-, rfl⟩ | ⟨clear, later, -, hd, he, rfl⟩⟩ := reencryptSecret_cases hrun
  · rfl
  · obtain ⟨found, hfound, -, hopen⟩ := encryptSecret_current hc hk (hcurrent parsed hk) clear purpose iv
    obtain rfl := Except.ok.inj (hfound.symm.trans he)
    rw [getD_some, hopen, hd, hplain clear hd]

/-! ## Values -/

theorem secretsIn_setting (envelope : Utf16) :
    secretsIn .settings (Json.print (.str envelope)) = [([], envelope)] := by
  simp [secretsIn, parseSecretText, Json.parse_print, Json.Value.str?]

/-- Side by side under one name each, the one re-encrypted from the other. -/
def Rewritten (c : WebCrypto) (keyring purpose : Utf16) (secrets later : List (Utf16 × Utf16)) : Prop :=
  List.Forall₂ (fun a b => a.1 = b.1 ∧ Reencrypted c keyring purpose a.2 b.2) secrets later

theorem rewriteEnvelope_secrets {purpose : Utf16} (column : SecretColumn) (hv : row.value = some value)
    (h : rewriteEnvelope c keyring purpose iv row = .ok next) :
    Rewritten c keyring purpose (secretsIn (.column column) value)
      (secretsIn (.column column) (next.getD value)) := by
  rw [rewriteEnvelope, hv] at h
  exact .cons ⟨rfl, iv, next, h, rfl⟩ .nil

theorem rewriteSetting_secrets {purpose : Utf16} (hv : row.value = some value)
    (h : rewriteSetting c keyring purpose iv row = .ok next) :
    Rewritten c keyring purpose (secretsIn .settings value) (secretsIn .settings (next.getD value)) := by
  rw [rewriteSetting, hv, bind_some] at h
  cases hp : parseSecretText value with
  | none =>
    simp only [hp, Except.ok.injEq] at h
    subst h
    rw [getD_none, secretsIn, hp]
    exact .nil
  | some envelope =>
    simp only [hp, bind, Except.bind] at h
    cases hr : reencryptSecret c envelope keyring purpose iv with
    | error e => simp [hr] at h
    | ok again =>
      simp only [hr, pure, Except.pure, Except.ok.injEq] at h
      subst h
      have hbefore : secretsIn .settings value = [([], envelope)] := by simp [secretsIn, hp]
      cases again with
      | none =>
        rw [map_none, getD_none, hbefore]
        exact .cons ⟨rfl, iv, none, hr, rfl⟩ .nil
      | some later =>
        rw [map_some, getD_some, secretsIn_setting, hbefore]
        exact .cons ⟨rfl, iv, some later, hr, rfl⟩ .nil

/-! ## Maps -/

theorem secretEntry_properties {value : Json.Value} (h : secretEntry value = some entry) :
    secretEntry (.obj entry.properties.entries) = some entry := by
  unfold secretEntry at h ⊢
  simp only [bind_eq_bind, bind_eq_some_iff] at h
  obtain ⟨properties, -, first, hfirst, envelope, henvelope, second, hsecond, version, hversion, heq⟩ := h
  rw [← some.inj heq, Json.Value.properties, Record.ofEntries_entries]
  simp [hfirst, henvelope, hsecond, hversion]

theorem rewriteEntry_spec {purpose : Utf16} {next : Option SecretEntry}
    (hentry : secretEntry (.obj entry.properties.entries) = some entry)
    (h : rewriteEntry c keyring purpose iv entry = .ok next) :
    Reencrypted c keyring purpose entry.envelope (next.getD entry).envelope ∧
      secretEntry (.obj (next.getD entry).properties.entries) = some (next.getD entry) := by
  unfold rewriteEntry at h
  cases hr : reencryptSecret c entry.envelope keyring purpose iv with
  | error e => simp [hr, bind, Except.bind] at h
  | ok again =>
    simp only [hr, bind, Except.bind, pure, Except.pure, Except.ok.injEq] at h
    subst h
    cases again with
    | none => exact ⟨⟨iv, none, hr, rfl⟩, hentry⟩
    | some later =>
      refine ⟨⟨iv, some later, hr, rfl⟩, ?_⟩
      rw [map_some, getD_some, secretEntry, Json.Value.properties, Record.ofEntries_entries]
      have hne : ascii "envelope" ≠ ascii "keyVersion" := by decide
      simp [Record.get_set_self, Record.get_set_ne _ hne, Json.Value.str?, Json.Value.num?]

variable {iv : Utf16 → Vector UInt8 12}

theorem rewriteEntries_spec {purpose : Utf16} {later : List (Utf16 × SecretEntry)} {changed : Bool}
    (hentries : ∀ e ∈ entries, secretEntry (.obj e.2.properties.entries) = some e.2)
    (h : rewriteEntries c keyring purpose iv entries = .ok (later, changed)) :
    List.Forall₂ (fun a b => a.1 = b.1 ∧ Reencrypted c keyring purpose a.2.envelope b.2.envelope) entries later ∧
      (∀ e ∈ later, secretEntry (.obj e.2.properties.entries) = some e.2) ∧
      (changed = false → later = entries) := by
  induction entries generalizing later changed with
  | nil =>
    simp only [rewriteEntries, Except.ok.injEq, mk.injEq] at h
    obtain ⟨rfl, rfl⟩ := h
    exact ⟨.nil, by simp, fun _ => rfl⟩
  | cons e entries ih =>
    obtain ⟨name, entry⟩ := e
    unfold rewriteEntries at h
    cases hone : rewriteEntry c keyring purpose (iv name) entry with
    | error e => simp [hone, bind, Except.bind] at h
    | ok next =>
      cases hrest : rewriteEntries c keyring purpose iv entries with
      | error e => simp [hone, hrest, bind, Except.bind] at h
      | ok rest =>
        obtain ⟨rest, restChanged⟩ := rest
        simp only [hone, hrest, bind, Except.bind, pure, Except.pure, Except.ok.injEq, mk.injEq] at h
        obtain ⟨rfl, rfl⟩ := h
        obtain ⟨hsame, hkept, hunchanged⟩ := ih (fun e he => hentries e (mem_cons_of_mem _ he)) hrest
        obtain ⟨hre, hentry⟩ := rewriteEntry_spec (hentries (name, entry) mem_cons_self) hone
        refine ⟨.cons ⟨rfl, hre⟩ hsame, ?_, ?_⟩
        · intro e he
          rcases mem_cons.mp he with rfl | he
          · exact hentry
          · exact hkept e he
        · intro hchanged
          obtain ⟨hnone, hfalse⟩ := Bool.or_eq_false_iff.mp hchanged
          obtain rfl : next = none := not_isSome_iff_eq_none.mp (by simp [hnone])
          rw [hunchanged hfalse, getD_none]

theorem parseSecretMap_mem {e : Utf16 × SecretEntry} (he : e ∈ (parseSecretMap value).entries) :
    secretEntry (.obj e.2.properties.entries) = some e.2 := by
  unfold parseSecretMap at he
  split at he
  · simp only [Record.filterMap, mem_filterMap, map_eq_some_iff] at he
    obtain ⟨member, -, entry, hentry, rfl⟩ := he
    exact secretEntry_properties hentry
  · cases he

theorem parseSecretMap_print (hnodup : (entries.map fst).Nodup)
    (hentries : ∀ e ∈ entries, secretEntry (.obj e.2.properties.entries) = some e.2) :
    (parseSecretMap (printSecretMap entries)).entries = entries := by
  have hmembers : (entries.map fun e => ((e.1, Json.Value.obj e.2.properties.entries) : Utf16 × Json.Value)).map
      fst = entries.map fst := by simp
  have hrecord := Record.ofEntries_entries
    (⟨entries.map fun e => (e.1, Json.Value.obj e.2.properties.entries), by rw [hmembers]; exact hnodup⟩ :
      Record Utf16 Json.Value)
  unfold parseSecretMap printSecretMap
  rw [Json.parse_print]
  simp only [hrecord, Record.filterMap, filterMap_map]
  conv_rhs => rw [← filterMap_some (l := entries)]
  refine filterMap_congr fun e he => ?_
  simp [hentries e he]

theorem rewriteSecretMap_secrets {purpose : Utf16} (hfield : field = .orderInputs ∨ field = .jobInputs)
    (hv : row.value = some value) (h : rewriteSecretMap c keyring purpose iv row = .ok next) :
    Rewritten c keyring purpose (secretsIn field value) (secretsIn field (next.getD value)) := by
  have hsecrets : ∀ v, secretsIn field v = (parseSecretMap v).entries.map fun e => (e.1, e.2.envelope) := by
    rcases hfield with rfl | rfl <;> exact fun _ => rfl
  rw [rewriteSecretMap, hv] at h
  cases hr : rewriteEntries c keyring purpose iv (parseSecretMap value).entries with
  | error e => simp [hr, bind, Except.bind] at h
  | ok result =>
    obtain ⟨later, changed⟩ := result
    simp only [hr, bind, Except.bind, pure, Except.pure, Except.ok.injEq] at h
    obtain ⟨hsame, hkept, hunchanged⟩ := rewriteEntries_spec (fun e he => parseSecretMap_mem he) hr
    have hlater : (parseSecretMap (next.getD value)).entries = later := by
      cases changed with
      | false =>
        subst h
        exact (hunchanged rfl).symm
      | true =>
        subst h
        refine parseSecretMap_print ?_ hkept
        have hnames : later.map fst = (parseSecretMap value).entries.map fst := by
          refine forall₂_eq_eq_eq ▸ (forall₂_map_left_iff.mpr (forall₂_map_right_iff.mpr ?_))
          exact hsame.flip.imp fun _ _ hab => hab.1.symm
        rw [hnames]
        exact (parseSecretMap value).nodup
    rw [hsecrets, hsecrets, hlater]
    exact forall₂_map_left_iff.mpr (forall₂_map_right_iff.mpr hsame)

/-! ## Purposes -/

def SecretColumn.purpose : SecretColumn → Utf16
  | .stockEntries => ascii "stock-entry"
  | .productSellableItems => ascii "build-config"
  | .automationJobs => ascii "build-callback"
  | .entitlementAuthorizationValues => ascii "build-input"
  | .deliveryRecords => ascii "delivery-content"
  | .paymentChannels => ascii "payment-credential"
  | .supplierAccounts => ascii "supplier-account-credentials"
  | .notificationChannelConfigs => ascii "notification-config"
  | .notificationSubscriptions => ascii "notification-destination"
  | .notificationDeliveries => ascii "notification-message"

def settingPurpose (key : String) : Option Utf16 :=
  if key = exchangeRateCredentialKey then some (ascii "exchange-rate-provider")
  else if key = feishuAppSecretKey then some feishuAppSecretPurpose
  else if key = telegramOwnerAlertBotTokenKey then some telegramOwnerAlertBotTokenPurpose
  else (authProviderId key).map authProviderSecretPurpose

def secretPurpose (field : SecretField) (key : String) : Option Utf16 :=
  match field with
  | .column column => some column.purpose
  | .orderInputs => some (ascii "order-input")
  | .jobInputs => some (ascii "build-input")
  | .settings => settingPurpose key

def readSecrets (c : WebCrypto) (keyring : Utf16) (field : SecretField) (key : String) (value : Option Utf16) :
    List (Utf16 × Except SecretError Utf16) :=
  match value, secretPurpose field key with
  | some value, some purpose => (secretsIn field value).map fun e => (e.1, decryptSecret c e.2 keyring purpose)
  | _, _ => []

theorem authProviderId_append (h : authProviderId key = some id) :
    key.toList = authSecretPrefix ++ id ++ authSecretSuffix ∧ isProviderId id = true := by
  unfold authProviderId at h
  dsimp only at h
  split at h
  · next hid =>
    rw [some.injEq] at h
    rw [← h]
    exact hid
  · cases h

theorem settingPurpose_auth (h : authProviderId key = some id) :
    settingPurpose key = some (authProviderSecretPurpose id) := by
  have hne : ∀ name : String, name.toList.take 5 ≠ "auth.".toList → key ≠ name := by
    rintro name hname rfl
    rw [(authProviderId_append h).1, append_assoc] at hname
    exact hname rfl
  unfold settingPurpose
  rw [if_neg (hne _ (by decide)), if_neg (hne _ (by decide)), if_neg (hne _ (by decide)), h]
  rfl

theorem secretSpecs_purpose : ∀ spec ∈ secretSpecs,
    spec.column = .stockEntries ∨ spec.purpose = spec.column.purpose := by
  unfold secretSpecs
  decide

/-! ## Stages -/

variable {ivs : SecretField → String → Utf16 → Vector UInt8 12}

theorem rewriteValue_secrets {purpose : Utf16} (hv : row.value = some value)
    (h : rewriteValue c keyring ivs field purpose row = .ok next) :
    Rewritten c keyring purpose (secretsIn field value) (secretsIn field (next.getD value)) := by
  cases field with
  | column column => exact rewriteEnvelope_secrets column hv h
  | orderInputs => exact rewriteSecretMap_secrets (Or.inl rfl) hv h
  | jobInputs => exact rewriteSecretMap_secrets (Or.inr rfl) hv h
  | settings => exact rewriteSetting_secrets hv h

theorem rewriteValue_none {purpose : Utf16} (hv : row.value = none) :
    rewriteValue c keyring ivs field purpose row = .ok none := by
  cases field <;> simp [rewriteValue, rewriteEnvelope, rewriteSecretMap, rewriteSetting, hv]

theorem RotationStage.rewrite_some {next : Utf16} (h : st.rewrite c keyring ivs row = .ok (some next)) :
    ∃ value purpose, row.value = some value ∧
      st.purpose row.key = some purpose ∧ rewriteValue c keyring ivs st.field purpose row = .ok (some next) ∧
      Rewritten c keyring purpose (secretsIn st.field value) (secretsIn st.field next) := by
  unfold RotationStage.rewrite at h
  cases hp : st.purpose row.key with
  | none => simp [hp] at h
  | some purpose =>
    simp only [hp] at h
    cases hv : row.value with
    | none => simp [rewriteValue_none hv] at h
    | some value => exact ⟨value, purpose, rfl, rfl, h, rewriteValue_secrets hv h⟩

/-- The stage re-encrypts for the readers of the rows it selects, unless they are stock entries. -/
def RotationStage.ForReaders (st : RotationStage) : Prop :=
  ∀ row purpose, st.selects row = true → st.purpose row.key = some purpose →
    st.field = .column .stockEntries ∨ secretPurpose st.field row.key = some purpose

theorem settingStages_forReaders (limit : Nat) : ∀ st ∈ settingStages limit, st.ForReaders := by
  unfold settingStages
  simp only [forall_mem_cons, not_mem_nil, false_implies, implies_true, and_true]
  refine ⟨?_, ?_, ?_, ?_, ?_, ?_⟩ <;> intro row purpose hsel hp <;> refine Or.inr ?_
  · have hkey : row.key = exchangeRateCredentialKey := beq_iff_eq.mp hsel
    exact (congrArg settingPurpose hkey).trans hp
  · obtain ⟨id, hid, rfl⟩ := map_eq_some_iff.mp hp
    exact settingPurpose_auth hid
  · have hkey : row.key = feishuAppSecretKey := beq_iff_eq.mp (Bool.and_eq_true_iff.mp hsel).1
    exact (congrArg settingPurpose hkey).trans hp
  · have hkey : row.key = telegramOwnerAlertBotTokenKey := beq_iff_eq.mp (Bool.and_eq_true_iff.mp hsel).1
    exact (congrArg settingPurpose hkey).trans hp
  · exact hp
  · exact hp

theorem columnStages_forReaders (limit : Nat) (current : Utf16) :
    ∀ st ∈ columnStages limit current, st.ForReaders := by
  intro st hst row purpose _ hp
  obtain ⟨spec, hspec, rfl⟩ := mem_map.mp hst
  rcases secretSpecs_purpose spec hspec with hstock | hsame
  · exact Or.inl (congrArg SecretField.column hstock)
  · refine Or.inr ?_
    rw [← hp]
    exact congrArg some hsame.symm

/-! ## Pages -/

theorem rewriteRows_mem {rewrite : SecretRow → Except SecretError (Option Utf16)} {rows : List SecretRow}
    {updates : List (SecretRow × Utf16)} (h : rewriteRows rewrite rows = .ok updates) :
    ∀ u, u ∈ updates ↔ u.1 ∈ rows ∧ rewrite u.1 = .ok (some u.2) := by
  induction rows generalizing updates with
  | nil =>
    simp only [rewriteRows, Except.ok.injEq] at h
    subst h
    simp
  | cons row rows ih =>
    unfold rewriteRows at h
    cases hone : rewrite row with
    | error e => simp [hone, bind, Except.bind] at h
    | ok next =>
      cases hrest : rewriteRows rewrite rows with
      | error e => simp [hone, hrest, bind, Except.bind] at h
      | ok rest =>
        simp only [hone, hrest, bind, Except.bind, pure, Except.pure, Except.ok.injEq] at h
        subst h
        rintro ⟨r, v⟩
        rw [mem_append, ih hrest, mem_toList, map_eq_some_iff, mem_cons]
        constructor
        · rintro (⟨w, rfl, heq⟩ | ⟨hmem, hrun⟩)
          · obtain ⟨rfl, rfl⟩ := mk.inj heq
            exact ⟨Or.inl rfl, hone⟩
          · exact ⟨Or.inr hmem, hrun⟩
        · rintro ⟨rfl | hmem, hrun⟩
          · rw [hone, Except.ok.injEq] at hrun
            exact Or.inl ⟨v, hrun, rfl⟩
          · exact Or.inr ⟨hmem, hrun⟩

theorem RotationStage.page_mem {s : SecretStore} (h : row ∈ st.page s) :
    row ∈ (s.rows st.field).rows ∧ st.selects row = true := by
  have hsort := mem_of_mem_take h
  rw [mem_insertionSort] at hsort
  exact mem_filter.mp hsort

end Gmshop
