import Mathlib
import GmshopEdge.Secrets.Keyring

/-!
# Envelopes

`encryptSecret`, `decryptSecret` and `reencryptSecret` (`lib/secrets.ts`). An envelope is
`v1.<key id>.<iv>.<ciphertext>`; installations with one raw key also hold `<iv>.<ciphertext>` under the
id `legacy`.

Web Crypto, the text codec and base64 are arguments; of them the round trips are used.
-/

namespace Gmshop

open List hiding Vector
open Utf16

abbrev Bytes := List UInt8

structure WebCrypto where
  /-- `TextEncoder` -/
  encode : Utf16 → Bytes
  /-- `TextDecoder` -/
  decode : Bytes → Utf16
  /-- SHA-256 -/
  digest : Bytes → Bytes
  /-- AES-GCM under a key and an initialisation vector -/
  encrypt : Bytes → Bytes → Bytes → Bytes
  decrypt : Bytes → Bytes → Bytes → Option Bytes
  btoa : Utf16 → Utf16
  atob : Utf16 → Option Utf16

/-! ## Texts that UTF-8 carries -/

/-- `String.prototype.toWellFormed`: a half of a surrogate pair that stands alone is replaced. -/
def toWellFormed : Utf16 → Utf16
  | [] => []
  | [u] => [if Json.isHighSurrogate u || Json.isLowSurrogate u then 0xFFFD else u]
  | u :: v :: rest =>
    if Json.isHighSurrogate u && Json.isLowSurrogate v then u :: v :: toWellFormed rest
    else (if Json.isHighSurrogate u || Json.isLowSurrogate u then 0xFFFD else u) :: toWellFormed (v :: rest)

def stripMark : Utf16 → Utf16
  | [] => []
  | u :: rest => if u = 0xFEFF then rest else u :: rest

def plaintext (value : Utf16) : Utf16 := stripMark (toWellFormed value)

structure WebCrypto.RoundTrips (c : WebCrypto) : Prop where
  decode_encode : ∀ value, c.decode (c.encode value) = plaintext value
  decrypt_encrypt : ∀ key iv plain, c.decrypt key iv (c.encrypt key iv plain) = some plain
  encrypt_ne_nil : ∀ key iv plain, c.encrypt key iv plain ≠ []
  atob_btoa : ∀ s : Utf16, (∀ u ∈ s, u < 0x100) → c.atob (c.btoa s) = some s
  btoa_ne_nil : ∀ s : Utf16, s ≠ [] → c.btoa s ≠ []
  btoa_dot : ∀ s : Utf16, (∀ u ∈ s, u < 0x100) → unit '.' ∉ c.btoa s

/-! ## The functions -/

def toBase64 (c : WebCrypto) (value : Bytes) : Utf16 := c.btoa (value.map UInt8.toUInt16)

def fromBase64 (c : WebCrypto) (value : Utf16) : Option Bytes :=
  (c.atob value).map fun binary => binary.map UInt16.toUInt8

def encryptionKey (c : WebCrypto) (material purpose : Utf16) : Bytes :=
  c.digest (c.encode (ascii "gmshop:" ++ purpose ++ 0 :: material))

def legacyEncryptionKey (c : WebCrypto) (material : Utf16) : Bytes := c.digest (c.encode material)

/-- `keyring.keys[id]`, where it is not empty. -/
def SecretKeyring.material (keyring : SecretKeyring) (id : Utf16) : Option Utf16 :=
  (keyring.keys.get id).filter (· != [])

def encryptSecret (c : WebCrypto) (value keyringValue purpose : Utf16) (iv : Vector UInt8 12) :
    Except SecretError Utf16 := do
  let keyring ← parseKeyring keyringValue
  match keyring.material keyring.current with
  | none => throw (.error "Current secret encryption key is unavailable")
  | some material =>
    let encrypted := c.encrypt (encryptionKey c material purpose) iv.toList (c.encode value)
    return [unit '.'].intercalate [envelopeVersion, keyring.current, toBase64 c iv.toList, toBase64 c encrypted]

def decryptSecret (c : WebCrypto) (value keyringValue purpose : Utf16) : Except SecretError Utf16 :=
  let parts := value.splitOn (unit '.')
  let versioned := parts.length == 4 && parts[0]? == some envelopeVersion
  let keyId := if versioned then parts[1]?.getD [] else legacyKeyId
  let iv := if versioned then parts[2]?.getD [] else parts[0]?.getD []
  let ciphertext := if versioned then parts[3]?.getD [] else parts[1]?.getD []
  if keyId = [] ∨ iv = [] ∨ ciphertext = [] then .error (.error "Invalid encrypted secret")
  else do
    let keyring ← parseKeyring keyringValue
    match keyring.material keyId with
    | none => throw (.error "Secret encryption key is unavailable")
    | some material =>
      let key := if versioned then encryptionKey c material purpose else legacyEncryptionKey c material
      match (fromBase64 c iv).bind fun iv => (fromBase64 c ciphertext).bind (c.decrypt key iv) with
      | none => throw .platform
      | some clear => return c.decode clear

/-- `none` leaves the envelope as it is. -/
def reencryptSecret (c : WebCrypto) (value keyringValue purpose : Utf16) (iv : Vector UInt8 12) :
    Except SecretError (Option Utf16) := do
  let keyring ← parseKeyring keyringValue
  let parts := value.splitOn (unit '.')
  if parts.length = 4 ∧ parts[0]? = some envelopeVersion ∧ parts[1]? = some keyring.current then return none
  let clear ← decryptSecret c value keyringValue purpose
  let encrypted ← encryptSecret c clear keyringValue purpose iv
  return some encrypted

def legacyEnvelope (c : WebCrypto) (value material : Utf16) (iv : Vector UInt8 12) : Utf16 :=
  [unit '.'].intercalate [toBase64 c iv.toList,
    toBase64 c (c.encrypt (legacyEncryptionKey c material) iv.toList (c.encode value))]

/-! ## Base64 -/

variable {c : WebCrypto}

theorem latin1_bytes (bytes : Bytes) : ∀ u ∈ bytes.map UInt8.toUInt16, u < 0x100 := by
  intro u hu
  obtain ⟨b, -, rfl⟩ := mem_map.mp hu
  exact b.toNat_lt

theorem fromBase64_toBase64 (hc : c.RoundTrips) (bytes : Bytes) : fromBase64 c (toBase64 c bytes) = some bytes := by
  rw [fromBase64, toBase64, hc.atob_btoa _ (latin1_bytes bytes), Option.map_some, map_map]
  congr 1
  conv_rhs => rw [← map_id bytes]
  refine map_congr_left fun b _ => ?_
  simp

theorem toBase64_dot (hc : c.RoundTrips) (bytes : Bytes) : unit '.' ∉ toBase64 c bytes :=
  hc.btoa_dot _ (latin1_bytes bytes)

theorem toBase64_ne_nil (hc : c.RoundTrips) {bytes : Bytes} (h : bytes ≠ []) : toBase64 c bytes ≠ [] :=
  hc.btoa_ne_nil _ fun hnil => h (map_eq_nil_iff.mp hnil)

theorem iv_ne_nil (iv : Vector UInt8 12) : iv.toList ≠ [] := by
  intro h
  have hlen := congrArg length h
  simp at hlen

/-! ## What an envelope says -/

variable {id keyringValue material : Utf16} {keyring : SecretKeyring}

section

variable (hc : c.RoundTrips)
include hc

theorem splitOn_envelope (hid : unit '.' ∉ id) (iv encrypted : Bytes) :
    ([unit '.'].intercalate [envelopeVersion, id, toBase64 c iv, toBase64 c encrypted]).splitOn (unit '.') =
      [envelopeVersion, id, toBase64 c iv, toBase64 c encrypted] := by
  refine splitOn_intercalate _ ?_ (cons_ne_nil _ _)
  intro part hpart
  simp only [mem_cons, not_mem_nil, or_false] at hpart
  rcases hpart with rfl | rfl | rfl | rfl
  · decide
  · exact hid
  · exact toBase64_dot hc iv
  · exact toBase64_dot hc encrypted

theorem decryptSecret_versioned (hk : parseKeyring keyringValue = .ok keyring) (hid : Carried id)
    (hm : keyring.material id = some material) (purpose value : Utf16) (iv : Vector UInt8 12) :
    decryptSecret c ([unit '.'].intercalate [envelopeVersion, id, toBase64 c iv.toList,
      toBase64 c (c.encrypt (encryptionKey c material purpose) iv.toList (c.encode value))])
      keyringValue purpose = .ok (plaintext value) := by
  have hiv := toBase64_ne_nil hc (iv_ne_nil iv)
  have hcipher := toBase64_ne_nil hc (hc.encrypt_ne_nil (encryptionKey c material purpose) iv.toList (c.encode value))
  unfold decryptSecret
  rw [splitOn_envelope hc hid.2]
  simp [hid.1, hiv, hcipher, hk, hm, fromBase64_toBase64 hc, hc.decrypt_encrypt, hc.decode_encode, bind,
    Except.bind, pure, Except.pure]

theorem splitOn_legacyEnvelope (value material : Utf16) (iv : Vector UInt8 12) :
    (legacyEnvelope c value material iv).splitOn (unit '.') = [toBase64 c iv.toList,
      toBase64 c (c.encrypt (legacyEncryptionKey c material) iv.toList (c.encode value))] := by
  refine splitOn_intercalate _ ?_ (cons_ne_nil _ _)
  intro part hpart
  simp only [mem_cons, not_mem_nil, or_false] at hpart
  rcases hpart with rfl | rfl
  · exact toBase64_dot hc _
  · exact toBase64_dot hc _

theorem decryptSecret_legacy (hk : parseKeyring keyringValue = .ok keyring)
    (hm : keyring.material legacyKeyId = some material) (purpose value : Utf16) (iv : Vector UInt8 12) :
    decryptSecret c (legacyEnvelope c value material iv) keyringValue purpose = .ok (plaintext value) := by
  have hiv := toBase64_ne_nil hc (iv_ne_nil iv)
  have hcipher := toBase64_ne_nil hc (hc.encrypt_ne_nil (legacyEncryptionKey c material) iv.toList (c.encode value))
  have hid : legacyKeyId ≠ [] := by decide
  unfold decryptSecret
  rw [splitOn_legacyEnvelope hc]
  simp [hid, hiv, hcipher, hk, hm, fromBase64_toBase64 hc, hc.decrypt_encrypt, hc.decode_encode, bind,
    Except.bind, pure, Except.pure]

end

theorem material_current (hk : parseKeyring keyringValue = .ok keyring) :
    ∃ material, keyring.material keyring.current = some material := by
  obtain ⟨hcurrent, hform⟩ := parseKeyring_ok hk
  obtain ⟨material, hmaterial⟩ := Option.isSome_iff_exists.mp hcurrent
  have hne : material ≠ [] := by
    rintro rfl
    rcases hform with hser | ⟨-, hlen, rfl⟩
    · exact absurd (hser.materials _ _ hmaterial) (by decide)
    · rw [Record.get_set_self, Option.some.injEq] at hmaterial
      rw [hmaterial] at hlen
      exact absurd hlen (by decide)
  exact ⟨material, by simp [SecretKeyring.material, hmaterial, hne]⟩

theorem encryptSecret_ok (hk : parseKeyring keyringValue = .ok keyring) (value purpose : Utf16)
    (iv : Vector UInt8 12) :
    ∃ material, keyring.material keyring.current = some material ∧ encryptSecret c value keyringValue purpose iv =
        .ok ([unit '.'].intercalate [envelopeVersion, keyring.current, toBase64 c iv.toList,
          toBase64 c (c.encrypt (encryptionKey c material purpose) iv.toList (c.encode value))]) := by
  obtain ⟨material, hmaterial⟩ := material_current hk
  simp [encryptSecret, hk, hmaterial, bind, Except.bind, pure, Except.pure]

end Gmshop
