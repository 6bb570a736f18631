import Mathlib
import GmshopEdge.Lib.Double

/-!
# Keyrings

The value of the setting that holds the encryption keys (`lib/secrets.ts`): a JSON text with the keys
and the id of the current one, or, in an older installation, one raw key. A rotation adds a key and
writes JSON.

    parseKeyring (serializeKeyring keyring) = keyring  (parseKeyring_serializeKeyring)

Texts are lists of UTF-16 code units; the id of a key is looked up among the keys' own properties.
-/

namespace Gmshop

open List hiding Vector
open Utf16

/-- What `secrets.ts` throws: its own messages, or an exception of the platform. -/
inductive SecretError where
  | error (message : String)
  | platform
  deriving DecidableEq

structure SecretKeyring where
  current : Utf16
  keys : Record Utf16 Utf16
  deriving DecidableEq

def envelopeVersion : Utf16 := ascii "v1"

def legacyKeyId : Utf16 := ascii "legacy"

def isOne (n : Json.Number) : Bool :=
  let up := 10 ^ n.exponent.toNat
  let down := 10 ^ (-n.exponent).toNat
  !n.negative && decide ((2 ^ 54 - 1) * down ≤ n.mantissa * up * 2 ^ 54) &&
    decide (n.mantissa * up * 2 ^ 53 ≤ (2 ^ 53 + 1) * down)

/-- `typeof key === "string" && key.length >= 32`. -/
def isMaterial : Json.Value → Bool
  | .str s => decide (32 ≤ s.length)
  | _ => false

def jsonKeyring (value : Utf16) : Option SecretKeyring :=
  match Json.parse value with
  | none => none
  | some parsed =>
    match parsed.get "version", parsed.get "current", (parsed.get "keys").bind Json.Value.properties with
    | some (.num version), some (.str current), some keys =>
      if isOne version && keys.values.all isMaterial && ((keys.filterMap Json.Value.str?).get current).isSome then
        some ⟨current, keys.filterMap Json.Value.str?⟩
      else none
    | _, _, _ => none

def parseKeyring (value : Utf16) : Except SecretError SecretKeyring :=
  match jsonKeyring value with
  | some keyring => .ok keyring
  | none =>
    if value.length < 16 then .error (.error "Secret encryption key is unavailable")
    else .ok ⟨legacyKeyId, Record.empty.set legacyKeyId value⟩

def serializeKeyring (keyring : SecretKeyring) : Utf16 :=
  Json.print (.obj [(ascii "version", .num ⟨false, 1, 0⟩), (ascii "current", .str keyring.current),
    (ascii "keys", .obj (keyring.keys.map Json.Value.str).entries)])

def randomKeyMaterial (bytes : Vector UInt8 32) : Utf16 :=
  bytes.toList.flatMap fun byte => [Json.hexDigit (byte.toNat / 16), Json.hexDigit (byte.toNat % 16)]

def createSecretKeyring (bytes : Vector UInt8 32) : Utf16 :=
  serializeKeyring ⟨ascii "k1", Record.empty.set (ascii "k1") (randomKeyMaterial bytes)⟩

/-- The digits of `/^k(\d+)$/`. -/
def versionDigits : Utf16 → Option Utf16
  | [] => none
  | u :: ds => if u = unit 'k' ∧ ds ≠ [] ∧ ds.all isDigit then some ds else none

/-- `version ? Number(version) : 0`. -/
def keyVersion (key : Utf16) : Double := ((versionDigits key).map fun ds => Double.round (number ds)).getD 0

/-- `k${Math.max(0, ...versions) + 1}`. -/
def nextKeyId (keyring : SecretKeyring) : Utf16 :=
  unit 'k' :: Double.text ((keyring.keys.names.map keyVersion).foldr max 0).succ

def rotateSecretKeyring (value : Utf16) (bytes : Vector UInt8 32) : Except SecretError Utf16 := do
  let keyring ← parseKeyring value
  let keyId := nextKeyId keyring
  return serializeKeyring ⟨keyId, keyring.keys.set keyId (randomKeyMaterial bytes)⟩

/-! ## What a keyring's text keeps -/

structure Serializable (keyring : SecretKeyring) : Prop where
  materials : ∀ id material, keyring.keys.get id = some material → 32 ≤ material.length
  current : (keyring.keys.get keyring.current).isSome

variable {keyring : SecretKeyring} {value : Utf16}

theorem parseKeyring_serializeKeyring (h : Serializable keyring) :
    parseKeyring (serializeKeyring keyring) = .ok keyring := by
  have hkeys : (keyring.keys.map Json.Value.str).filterMap Json.Value.str? = keyring.keys :=
    Record.filterMap_map (f := Json.Value.str?) (g := Json.Value.str) (fun _ => rfl) keyring.keys
  have hmaterials : (keyring.keys.map Json.Value.str).values.all isMaterial = true := by
    rw [all_eq_true]
    intro v hv
    obtain ⟨e, he, rfl⟩ := mem_map.mp hv
    obtain ⟨⟨id, material⟩, hmem, rfl⟩ := mem_map.mp he
    exact decide_eq_true (h.materials id material (Record.get_eq_some_iff.mpr hmem))
  have hone : isOne ⟨false, 1, 0⟩ = true := by decide
  have hjson : jsonKeyring (serializeKeyring keyring) = some keyring := by
    rw [jsonKeyring, serializeKeyring, Json.parse_print]
    simp only [Json.Value.get, Json.Value.properties, Option.bind_some]
    have hversion : ∀ a b c : Json.Value, (Record.ofEntries [(ascii "version", a), (ascii "current", b),
        (ascii "keys", c)]).get (ascii "version") = some a := fun _ _ _ => rfl
    have hcurrent : ∀ a b c : Json.Value, (Record.ofEntries [(ascii "version", a), (ascii "current", b),
        (ascii "keys", c)]).get (ascii "current") = some b := fun _ _ _ => rfl
    have hfield : ∀ a b c : Json.Value, (Record.ofEntries [(ascii "version", a), (ascii "current", b),
        (ascii "keys", c)]).get (ascii "keys") = some c := fun _ _ _ => rfl
    rw [hversion, hcurrent, hfield]
    simp only [Option.bind_some, Json.Value.properties, Record.ofEntries_entries, hone, hmaterials, hkeys,
      h.current, Bool.and_self, if_true]
  rw [parseKeyring, hjson]

theorem parseKeyring_ok (h : parseKeyring value = .ok keyring) : (keyring.keys.get keyring.current).isSome ∧
      (Serializable keyring ∨ jsonKeyring value = none ∧ 16 ≤ value.length ∧
        keyring = ⟨legacyKeyId, Record.empty.set legacyKeyId value⟩) := by
  unfold parseKeyring at h
  cases hjson : jsonKeyring value with
  | none =>
    rw [hjson] at h
    by_cases hshort : value.length < 16
    · rw [if_pos hshort] at h
      cases h
    · rw [if_neg hshort, Except.ok.injEq] at h
      subst h
      refine ⟨?_, .inr ⟨rfl, by omega, rfl⟩⟩
      rfl
  | some found =>
    rw [hjson, Except.ok.injEq] at h
    subst h
    unfold jsonKeyring at hjson
    split at hjson
    · cases hjson
    · split at hjson
      · next version current keys _ _ _ =>
        split at hjson
        · next hguard =>
          rw [Option.some.injEq] at hjson
          subst hjson
          rw [Bool.and_eq_true, Bool.and_eq_true] at hguard
          refine ⟨hguard.2, .inl ⟨?_, hguard.2⟩⟩
          intro id material hget
          rw [Record.get_filterMap, Option.bind_eq_some_iff] at hget
          obtain ⟨v, hv, hstr⟩ := hget
          have hmem : v ∈ keys.values :=
            mem_map.mpr ⟨(id, v), Record.get_eq_some_iff.mp hv, rfl⟩
          have hmaterial := all_eq_true.mp hguard.1.2 v hmem
          cases v <;> cases hstr
          exact of_decide_eq_true hmaterial
        · cases hjson
      · cases hjson

theorem randomKeyMaterial_length (bytes : Vector UInt8 32) : (randomKeyMaterial bytes).length = 64 := by
  have hall : ∀ l : List UInt8, (l.flatMap fun byte =>
      [Json.hexDigit (byte.toNat / 16), Json.hexDigit (byte.toNat % 16)]).length = 2 * l.length := by
    intro l
    induction l with
    | nil => rfl
    | cons byte l ih =>
      rw [flatMap_cons, length_append, ih, length_cons]
      simp only [length_cons, length_nil]
      omega
  rw [randomKeyMaterial, hall, Vector.length_toList]

/-! ## Rotation -/

/-- The version numbers of a keyring's ids, all below the numbers a double counts in ones. -/
def Countable (keyring : SecretKeyring) : Prop :=
  ∀ id ∈ keyring.keys.names, ∀ ds, versionDigits id = some ds → number ds < 2 ^ 53

theorem foldr_max_countable {l : List Double} (h : ∀ x ∈ l, ∃ n : Nat, n < 2 ^ 53 ∧ x = n) :
    ∃ m : Nat, m < 2 ^ 53 ∧ l.foldr max 0 = (m : Double) ∧ ∀ n : Nat, (n : Double) ∈ l → n ≤ m := by
  induction l with
  | nil => exact ⟨0, by decide, rfl, fun n hn => by cases hn⟩
  | cons x l ih =>
    obtain ⟨m, hm, hfold, hmax⟩ := ih fun y hy => h y (mem_cons_of_mem _ hy)
    obtain ⟨n, hn, rfl⟩ := h x mem_cons_self
    refine ⟨max n m, by omega, ?_, ?_⟩
    · rw [foldr_cons, hfold]
      exact (WithTop.coe_max n m).symm
    · intro k hk
      rcases mem_cons.mp hk with heq | hmem
      · obtain rfl : k = n := WithTop.coe_injective heq
        exact Nat.le_max_left ..
      · have hle := hmax k hmem
        omega

theorem nextKeyId_spec (h : Countable keyring) : ∃ n, nextKeyId keyring = unit 'k' :: digits n ∧
      ∀ id ∈ keyring.keys.names, ∀ ds, versionDigits id = some ds → number ds < n := by
  have hversions : ∀ x ∈ keyring.keys.names.map keyVersion, ∃ n : Nat, n < 2 ^ 53 ∧ x = (n : Double) := by
    intro x hx
    obtain ⟨id, hid, rfl⟩ := mem_map.mp hx
    unfold keyVersion
    cases hds : versionDigits id with
    | none => exact ⟨0, by decide, rfl⟩
    | some ds =>
      have hlt := h id hid ds hds
      exact ⟨number ds, hlt, Double.round_exact hlt.le⟩
  obtain ⟨m, hm, hfold, hmax⟩ := foldr_max_countable hversions
  refine ⟨m + 1, ?_, ?_⟩
  · rw [nextKeyId, hfold, Double.succ_exact hm, Double.text_exact (by omega)]
  · intro id hid ds hds
    have hlt := h id hid ds hds
    have hmem : (number ds : Double) ∈ keyring.keys.names.map keyVersion := by
      refine mem_map.mpr ⟨id, hid, ?_⟩
      rw [keyVersion, hds]
      exact Double.round_exact hlt.le
    exact Nat.lt_succ_of_le (hmax _ hmem)

theorem versionDigits_digits (n : Nat) : versionDigits (unit 'k' :: digits n) = some (digits n) := by
  have hdigits : (digits n).all isDigit = true :=
    all_eq_true.mpr fun u hu => isDigit_of_mem_digits hu
  rw [versionDigits, if_pos ⟨rfl, digits_ne_nil n, hdigits⟩]

theorem nextKeyId_fresh (h : Countable keyring) : nextKeyId keyring ∉ keyring.keys.names := by
  obtain ⟨n, hn, hmax⟩ := nextKeyId_spec h
  intro hmem
  rw [hn] at hmem
  have hlt := hmax _ hmem _ (versionDigits_digits n)
  rw [number_digits] at hlt
  exact Nat.lt_irrefl n hlt

def Carried (id : Utf16) : Prop := id ≠ [] ∧ unit '.' ∉ id

theorem carried_nextKeyId (h : Countable keyring) : Carried (nextKeyId keyring) := by
  obtain ⟨n, hn, -⟩ := nextKeyId_spec h
  rw [hn]
  refine ⟨cons_ne_nil _ _, ?_⟩
  rw [mem_cons, not_or]
  refine ⟨by decide, fun hmem => ?_⟩
  exact absurd (isDigit_of_mem_digits hmem) (by decide)

/-- A keyring that a rotation keeps: none of its keys is shorter than the JSON form allows, and its
versions can be counted on. -/
structure Rotatable (keyring : SecretKeyring) : Prop where
  materials : ∀ id material, keyring.keys.get id = some material → 32 ≤ material.length
  countable : Countable keyring

theorem rotateSecretKeyring_ok (h : parseKeyring value = .ok keyring) (hrot : Rotatable keyring)
    (bytes : Vector UInt8 32) :
    ∃ rotated, rotateSecretKeyring value bytes = .ok rotated ∧ parseKeyring rotated =
        .ok ⟨nextKeyId keyring, keyring.keys.set (nextKeyId keyring) (randomKeyMaterial bytes)⟩ := by
  refine ⟨_, by rw [rotateSecretKeyring, h]; rfl, parseKeyring_serializeKeyring ⟨?_, ?_⟩⟩
  · intro id material hget
    by_cases hid : id = nextKeyId keyring
    · rw [hid, Record.get_set_self, Option.some.injEq] at hget
      rw [← hget, randomKeyMaterial_length]
      decide
    · rw [Record.get_set_ne _ hid] at hget
      exact hrot.materials id material hget
  · rw [Record.get_set_self]
    rfl

end Gmshop
