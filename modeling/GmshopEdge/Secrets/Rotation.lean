import GmshopEdge.Secrets.Envelope

/-!
# Rotations of the keyring

A secret stays readable along any run of rotations that keep the keys: a rotation of a raw key shorter
than the JSON form allows writes a text that is read as a raw key itself, and one whose versions have
left the numbers a double counts in ones may reuse an id.
-/

namespace Gmshop

open List hiding Vector
open Utf16 Except

variable {c : WebCrypto}

/-! ## Plain texts -/

theorem toWellFormed_cons {u : UInt16} (h : (Json.isHighSurrogate u || Json.isLowSurrogate u) = false)
    (rest : Utf16) : toWellFormed (u :: rest) = u :: toWellFormed rest := by
  obtain ⟨hhigh, hlow⟩ := Bool.or_eq_false_iff.mp h
  cases rest <;> simp [toWellFormed, hhigh, hlow]

theorem toWellFormed_toWellFormed (us : Utf16) : toWellFormed (toWellFormed us) = toWellFormed us := by
  have hplain : ∀ u : UInt16, (Json.isHighSurrogate
      (if Json.isHighSurrogate u || Json.isLowSurrogate u then 0xFFFD else u) || Json.isLowSurrogate
      (if Json.isHighSurrogate u || Json.isLowSurrogate u then 0xFFFD else u)) = false := by
    intro u
    by_cases hu : (Json.isHighSurrogate u || Json.isLowSurrogate u) = true
    · rw [if_pos hu]
      decide
    · rw [if_neg hu]
      exact Bool.eq_false_of_not_eq_true hu
  fun_induction toWellFormed us with
  | case1 => rfl
  | case2 u => exact toWellFormed_cons (hplain u) []
  | case3 u v rest hpair ih => rw [toWellFormed, if_pos hpair, ih]
  | case4 u v rest hpair ih => rw [toWellFormed_cons (hplain u), ih]

variable {envelope keyringValue later value : Utf16} {keyring : SecretKeyring}

theorem plaintext_plaintext (h : (plaintext value).head? ≠ some 0xFEFF) :
    plaintext (plaintext value) = plaintext value := by
  have hkeep : ∀ us : Utf16, us.head? ≠ some 0xFEFF → stripMark us = us := by
    intro us hus
    cases us with
    | nil => rfl
    | cons u us => exact if_neg (by simpa using hus)
  have hwell : toWellFormed (plaintext value) = plaintext value := by
    have hidem := toWellFormed_toWellFormed value
    unfold plaintext
    cases hus : toWellFormed value with
    | nil => rfl
    | cons u us =>
      rw [hus] at hidem
      rw [stripMark]
      by_cases hu : u = 0xFEFF
      · subst hu
        rw [toWellFormed_cons (by decide), cons.injEq] at hidem
        exact hidem.2
      · rw [if_neg hu]
        exact hidem
  calc plaintext (plaintext value) = stripMark (toWellFormed (plaintext value)) := rfl
    _ = stripMark (plaintext value) := by rw [hwell]
    _ = plaintext value := hkeep _ h

/-! ## One rotation -/

def Rotates (value rotated : Utf16) : Prop :=
  ∃ keyring bytes, parseKeyring value = .ok keyring ∧ Rotatable keyring ∧
    rotateSecretKeyring value bytes = .ok rotated

def Kept (keyring later : SecretKeyring) : Prop :=
  ∀ id material, keyring.keys.get id = some material → later.keys.get id = some material

theorem Kept.material {later : SecretKeyring} (h : Kept keyring later) {id material : Utf16}
    (hm : keyring.material id = some material) : later.material id = some material := by
  unfold SecretKeyring.material at hm ⊢
  rw [Option.filter_eq_some_iff] at hm ⊢
  exact ⟨h id material hm.1, hm.2⟩

theorem Rotates.kept {rotated : Utf16} (h : Rotates value rotated) (hk : parseKeyring value = .ok keyring) :
    ∃ later, parseKeyring rotated = .ok later ∧ Kept keyring later ∧ Carried later.current := by
  obtain ⟨found, bytes, hfound, hrotatable, hrun⟩ := h
  obtain rfl : found = keyring := ok.inj (hfound.symm.trans hk)
  obtain ⟨rotated', hrun', hparse⟩ := rotateSecretKeyring_ok hk hrotatable bytes
  obtain rfl : rotated' = rotated := ok.inj (hrun'.symm.trans hrun)
  refine ⟨_, hparse, ?_, carried_nextKeyId hrotatable.countable⟩
  intro id material hget
  have hfresh := nextKeyId_fresh hrotatable.countable
  have hne : id ≠ nextKeyId found := by
    rintro rfl
    exact hfresh (Record.mem_names_iff.mpr ⟨material, hget⟩)
  exact (Record.get_set_ne _ hne _).trans hget

/-! ## Runs -/

theorem kept_of_rotations (h : Relation.ReflTransGen Rotates value later)
    (hk : parseKeyring value = .ok keyring) (hcurrent : Carried keyring.current) :
    ∃ laterKeyring, parseKeyring later = .ok laterKeyring ∧ Kept keyring laterKeyring ∧
      Carried laterKeyring.current := by
  induction h with
  | refl => exact ⟨keyring, hk, fun _ _ hm => hm, hcurrent⟩
  | tail _ hstep ih =>
    obtain ⟨middle, hmiddle, hkept, -⟩ := ih
    obtain ⟨last, hlast, hkept', hcarried⟩ := hstep.kept hmiddle
    exact ⟨last, hlast, fun id material hm => hkept' id material (hkept id material hm), hcarried⟩

/-- An envelope of a text under a keyring, as the code makes it now or an older installation did. -/
inductive Produced (c : WebCrypto) (keyringValue purpose text : Utf16) : Utf16 → Prop
  | versioned {envelope : Utf16} (iv : Vector UInt8 12)
      (run : encryptSecret c text keyringValue purpose iv = .ok envelope) :
      Produced c keyringValue purpose text envelope
  | legacy (iv : Vector UInt8 12) {keyring : SecretKeyring} {material : Utf16}
      (parsed : parseKeyring keyringValue = .ok keyring)
      (key : keyring.material legacyKeyId = some material) :
      Produced c keyringValue purpose text (legacyEnvelope c text material iv)

def UnderCurrentKey (keyring : SecretKeyring) (envelope : Utf16) : Prop :=
  let parts := envelope.splitOn (unit '.')
  parts.length = 4 ∧ parts[0]? = some envelopeVersion ∧ parts[1]? = some keyring.current

theorem reencryptSecret_current (hk : parseKeyring keyringValue = .ok keyring)
    (h : UnderCurrentKey keyring envelope) (purpose : Utf16) (iv : Vector UInt8 12) :
    reencryptSecret c envelope keyringValue purpose iv = .ok none := by
  simp only [reencryptSecret, hk, bind, bind, pure, pure]
  exact if_pos h

theorem encryptSecret_current (hc : c.RoundTrips) (hk : parseKeyring keyringValue = .ok keyring)
    (hcurrent : Carried keyring.current) (text purpose : Utf16) (iv : Vector UInt8 12) :
    ∃ envelope, encryptSecret c text keyringValue purpose iv = .ok envelope ∧ UnderCurrentKey keyring envelope ∧
      decryptSecret c envelope keyringValue purpose = .ok (plaintext text) := by
  obtain ⟨material, hmaterial, hrun⟩ := encryptSecret_ok (c := c) hk text purpose iv
  refine ⟨_, hrun, ?_, decryptSecret_versioned hc hk hcurrent hmaterial purpose text iv⟩
  unfold UnderCurrentKey
  rw [splitOn_envelope hc hcurrent.2]
  exact ⟨rfl, rfl, rfl⟩

theorem Produced.decrypts (hc : c.RoundTrips) {purpose text : Utf16} {laterKeyring : SecretKeyring}
    (h : Produced c value purpose text envelope) (hk : parseKeyring value = .ok keyring)
    (hcurrent : Carried keyring.current) (hlater : parseKeyring later = .ok laterKeyring)
    (hkept : Kept keyring laterKeyring) : decryptSecret c envelope later purpose = .ok (plaintext text) := by
  cases h with
  | versioned iv hrun =>
    obtain ⟨material, hmaterial, hrun'⟩ := encryptSecret_ok (c := c) hk text purpose iv
    obtain rfl := ok.inj (hrun'.symm.trans hrun)
    exact decryptSecret_versioned hc hlater hcurrent (hkept.material hmaterial) purpose text iv
  | legacy iv hparsed hkey =>
    obtain rfl := ok.inj (hparsed.symm.trans hk)
    exact decryptSecret_legacy hc hlater (hkept.material hkey) purpose text iv

/-- Along rotations that keep the keys, an envelope of an earlier keyring still opens to its text, and
its re-encryption is an envelope of that text under the current key, which is left as it is. -/
theorem secrets_survive_rotations (hc : c.RoundTrips) {value later : Utf16} {keyring : SecretKeyring}
    (hk : parseKeyring value = .ok keyring) (hcurrent : Carried keyring.current)
    (hrotations : Relation.ReflTransGen Rotates value later) :
    ∃ laterKeyring, parseKeyring later = .ok laterKeyring ∧
      ∀ purpose text envelope, Produced c value purpose text envelope →
        decryptSecret c envelope later purpose = .ok (plaintext text) ∧
        ((plaintext text).head? ≠ some 0xFEFF → ∀ iv, ∃ again,
          reencryptSecret c envelope later purpose iv = .ok again ∧
          UnderCurrentKey laterKeyring (again.getD envelope) ∧
          decryptSecret c (again.getD envelope) later purpose = .ok (plaintext text) ∧
          ∀ iv', reencryptSecret c (again.getD envelope) later purpose iv' = .ok none) := by
  obtain ⟨laterKeyring, hlater, hkept, hcarried⟩ := kept_of_rotations hrotations hk hcurrent
  refine ⟨laterKeyring, hlater, fun purpose text envelope hproduced => ?_⟩
  have hdecrypt := hproduced.decrypts hc hk hcurrent hlater hkept
  refine ⟨hdecrypt, fun hmark iv => ?_⟩
  by_cases hunder : UnderCurrentKey laterKeyring envelope
  · refine ⟨none, reencryptSecret_current hlater hunder purpose iv, hunder, hdecrypt, ?_⟩
    exact reencryptSecret_current hlater hunder purpose
  · obtain ⟨again, hagain, hcur, hopen⟩ :=
      encryptSecret_current hc hlater hcarried (plaintext text) purpose iv
    rw [plaintext_plaintext hmark] at hopen
    refine ⟨some again, ?_, hcur, hopen, reencryptSecret_current hlater hcur purpose⟩
    simp only [reencryptSecret, hlater, bind, Except.bind, pure, Except.pure]
    simp only [hdecrypt, hagain]
    exact if_neg hunder

def openCrypto : WebCrypto where
  encode value := (toWellFormed value).flatMap fun u => [UInt8.ofNat (u.toNat / 256), UInt8.ofNat u.toNat]
  decode bytes := stripMark (pairs bytes)
  digest bytes := bytes
  encrypt key iv plain := 0 :: key ++ iv ++ plain
  decrypt key iv cipher :=
    if (0 :: key ++ iv).isPrefixOf cipher then some (cipher.drop (0 :: key ++ iv).length) else none
  btoa binary := binary.map (· + 0x100)
  atob text := some (text.map (· - 0x100))
where
  pairs : Bytes → Utf16
    | a :: b :: rest => UInt16.ofNat (a.toNat * 256 + b.toNat) :: pairs rest
    | _ => []

theorem openCrypto_roundTrips : openCrypto.RoundTrips where
  decode_encode := by
    intro value
    have hpairs : ∀ us : Utf16, openCrypto.pairs
        (us.flatMap fun u => [UInt8.ofNat (u.toNat / 256), UInt8.ofNat u.toNat]) = us := by
      intro us
      induction us with
      | nil => rfl
      | cons u us ih =>
        have hlt := u.toNat_lt
        rw [flatMap_cons, cons_append, cons_append, nil_append, openCrypto.pairs, ih]
        congr 1
        refine UInt16.toNat_inj.mp ?_
        simp only [UInt8.toNat_ofNat', UInt16.toNat_ofNat']
        omega
    exact congrArg stripMark (hpairs _)
  decrypt_encrypt := by
    intro key iv plain
    show (if (0 :: key ++ iv).isPrefixOf (0 :: key ++ iv ++ plain) then _ else none) = some plain
    rw [if_pos ( isPrefixOf_iff_prefix.mpr (prefix_append _ _))]
    exact congrArg some drop_left
  encrypt_ne_nil _ _ _ := cons_ne_nil _ _
  atob_btoa := by
    intro s _
    show some ((s.map (· + 0x100)).map (· - 0x100)) = some s
    rw [map_map]
    congr 1
    conv_rhs => rw [← map_id s]
    exact map_congr_left fun u _ => UInt16.add_sub_cancel u 0x100
  btoa_ne_nil _ hs := fun h => hs (map_eq_nil_iff.mp h)
  btoa_dot := by
    intro s hs hmem
    obtain ⟨u, hu, heq⟩ := mem_map.mp hmem
    have hlt := UInt16.lt_iff_toNat_lt.mp (hs u hu)
    have hval := congrArg UInt16.toNat heq
    rw [UInt16.toNat_add] at hval
    have h1 : (0x100 : UInt16).toNat = 256 := rfl
    have h2 : (unit '.').toNat = 46 := rfl
    omega

/-- A raw key of 32 units, rotated once. -/
theorem secrets_survive_rotations_raw : ∃ rotated envelope,
    rotateSecretKeyring (ascii "0123456789abcdef0123456789abcdef") (Vector.replicate 32 7) = .ok rotated ∧
      encryptSecret openCrypto (ascii "s") (ascii "0123456789abcdef0123456789abcdef") (ascii "default")
        (Vector.replicate 12 0) = .ok envelope ∧
      decryptSecret openCrypto envelope rotated (ascii "default") = .ok (ascii "s") := by
  obtain ⟨keyring, hkeyring⟩ : ∃ keyring, keyring = (⟨legacyKeyId, Record.empty.set legacyKeyId
      (ascii "0123456789abcdef0123456789abcdef")⟩ : SecretKeyring) := ⟨_, rfl⟩
  have hk : parseKeyring (ascii "0123456789abcdef0123456789abcdef") = .ok keyring := by
    rw [hkeyring]
    decide
  have hkeys : keyring.keys.entries = [(legacyKeyId, ascii "0123456789abcdef0123456789abcdef")] := by
    rw [hkeyring]
    rfl
  have hrotatable : Rotatable keyring := by
    constructor
    · intro id material hget
      have hmem := Record.get_eq_some_iff.mp hget
      rw [hkeys, mem_singleton] at hmem
      obtain ⟨-, rfl⟩ := Prod.mk.inj hmem
      decide
    · intro id hid ds hds
      rw [Record.names, hkeys, map_singleton, mem_singleton] at hid
      have hnone : versionDigits legacyKeyId = none := by decide
      rw [hid, hnone] at hds
      cases hds
  have hcurrent : Carried keyring.current := by
    rw [hkeyring]
    exact ⟨by decide, by decide⟩
  obtain ⟨rotated, hrotated, -⟩ := rotateSecretKeyring_ok hk hrotatable (Vector.replicate 32 7)
  obtain ⟨_, -, henvelope⟩ := encryptSecret_ok (c := openCrypto) hk (ascii "s") (ascii "default")
    (Vector.replicate 12 0)
  obtain ⟨_, -, hall⟩ := secrets_survive_rotations openCrypto_roundTrips hk hcurrent
    (.single ⟨keyring, _, hk, hrotatable, hrotated⟩)
  exact ⟨rotated, _, hrotated, henvelope, (hall _ _ _ (.versioned _ henvelope)).1⟩

/-- A raw key of 16 units: after a rotation nothing of before opens. -/
theorem raw_key_lost_by_rotation : ∃ rotated envelope,
    rotateSecretKeyring (ascii "0123456789abcdef") (Vector.replicate 32 7) = .ok rotated ∧
      encryptSecret openCrypto (ascii "s") (ascii "0123456789abcdef") (ascii "default")
        (Vector.replicate 12 0) = .ok envelope ∧
      decryptSecret openCrypto envelope (ascii "0123456789abcdef") (ascii "default") = .ok (ascii "s") ∧
      decryptSecret openCrypto envelope rotated (ascii "default") = .error .platform :=
  ⟨_, _, rfl, rfl, by decide, by decide +kernel⟩

end Gmshop
