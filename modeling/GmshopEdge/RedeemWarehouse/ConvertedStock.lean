import GmshopEdge.Inventory.Imports

/-!
# Converted stock

The texts of redemption stock: `convertReservedStock` and `upstreamKeyForDelivery` (`redeem-warehouse/server/
convert-delivery.ts`), `generateRedeemSellableInventory` (`admin.ts`) and `formatInventoryDelivery`
(`catalog/server/inventory-secrets.ts`). An entry keeps its decrypted content.

`convertReservedStock` writes what it accepts again. A generated entry is accepted again exactly where its code
has the strict form, and the key of a raw entry is read back exactly where its URL has (`converted_again_iff`).
-/

namespace Gmshop.Redeem

open List Utf16

inductive PhRedeemSku where
  | plus | fiveX | twentyX
  deriving DecidableEq

def PhRedeemSku.text : PhRedeemSku → Utf16
  | .plus => ascii "GPT_PLUS_PH"
  | .fiveX => ascii "GPT_5X_PH"
  | .twentyX => ascii "GPT_20X_PH"

/-- `sku.toLowerCase().replaceAll("_", "-")`. -/
def skuPrefix (sku : Utf16) : Utf16 := sku.map fun u => if u = unit '_' then unit '-' else lowerUnit u

structure ConvertibleStock where
  content : Utf16
  redeemSku : Option PhRedeemSku := none
  deriving DecidableEq

/-- What is thrown: an error of the source, or one of the request or its schema. -/
inductive ConvertError where
  | domain (e : DomainError)
  | request
  deriving DecidableEq

/-! ## The layout -/

def colon : Utf16 := [0xFF1A]
def cdkLabel : Utf16 := ascii "CDK"
def urlLabel : Utf16 := [0x5145, 0x503C, 0x5730, 0x5740]
def resellerRedeemUrl : Utf16 := ascii "https://redeem.lsrai.shop"

def urlLine (url : Utf16) : Utf16 := unit '\n' :: (urlLabel ++ colon ++ url)

def formatInventoryDelivery (secret : Utf16) (usageUrl : Option Utf16 := none) : Utf16 :=
  match usageUrl with
  | none | some [] => secret
  | some url => cdkLabel ++ colon ++ (secret ++ urlLine url)

def isCodeUnit (u : UInt16) : Bool := (0x41 ≤ u && u ≤ 0x5A) || (0x32 ≤ u && u ≤ 0x39)

/-- `n` groups of four, each behind a dash. -/
def isCodeGroups : Nat → Utf16 → Bool
  | 0, us => us.isEmpty
  | n + 1, d :: a :: b :: c :: e :: us => d == unit '-' && [a, b, c, e].all isCodeUnit && isCodeGroups n us
  | _ + 1, _ => false

/-- `^prefix-[A-Z2-9]{4}(?:-[A-Z2-9]{4}){3}$`. -/
def isRedeemCode (sku : PhRedeemSku) (code : Utf16) : Bool :=
  (skuPrefix sku.text).isPrefixOf code && isCodeGroups 4 (code.drop (skuPrefix sku.text).length)

/-- The pattern of a converted content: a code of the SKU in the layout of a delivery. -/
def isConverted (sku : PhRedeemSku) (content : Utf16) : Bool :=
  let code := (content.drop 4).take ((skuPrefix sku.text).length + 20)
  isRedeemCode sku code && content == formatInventoryDelivery code (some resellerRedeemUrl)

def isKeyUnit (u : UInt16) : Bool :=
  (0x41 ≤ u && u ≤ 0x5A) || (0x61 ≤ u && u ≤ 0x7A) || (0x30 ≤ u && u ≤ 0x39) || u == unit '_' || u == unit '-'

def afterLabel (label us : Utf16) : Option Utf16 :=
  if label.isPrefixOf us then
    match us.drop label.length with
    | u :: rest => if u = 0xFF1A ∨ u = unit ':' then some rest else none
    | [] => none
  else none

/-- `https:\/\/[^\s]+`. -/
def isHttpsUrl (url : Utf16) : Bool :=
  (ascii "https://").isPrefixOf url && !(url.drop 8).isEmpty && (url.drop 8).all fun u => !isWhitespace u

/-- `(?:\r?\n充值地址[：:]\s*https:\/\/[^\s]+)?`. -/
def isUrlLine (us : Utf16) : Bool :=
  us.isEmpty || match us with
    | 0x0D :: 0x0A :: rest | 0x0A :: rest =>
      (afterLabel urlLabel rest).any fun url => isHttpsUrl (url.dropWhile isWhitespace)
    | _ => false

def upstreamKeyForDelivery (content : Utf16) : Option Utf16 :=
  let text := trim content
  let body := ((afterLabel cdkLabel text).map (dropWhile isWhitespace)).getD text
  let key := body.takeWhile isKeyUnit
  if 1 ≤ key.length ∧ key.length ≤ 64 ∧ isUrlLine (body.dropWhile isKeyUnit) = true then some key else none

/-! ## The writers -/

/-- What a call comes to: the keys it sent to the warehouse, the row it wrote, its answer. -/
structure StockConversion where
  asked : List Utf16 := []
  written : Option ConvertibleStock := none
  answer : Except ConvertError Utf16

/-- `changed` says whether the guarded UPDATE hit, `replay` is the content of a row that another call converted. -/
def convertReservedStock (entry : ConvertibleStock) (sku : PhRedeemSku)
    (requester : Utf16 → Option (PhRedeemSku × Utf16)) (changed : Bool) (replay : Option Utf16) : StockConversion :=
  match entry.redeemSku with
  | some k =>
    if k ≠ sku then ⟨[], none, .error (.domain ⟨"redeem_delivery_sku_conflict", 409, "Inventory plan mismatch"⟩)⟩
    else if isConverted sku entry.content = false then
      ⟨[], none, .error (.domain ⟨"redeem_delivery_marker_conflict", 409, "Converted inventory content mismatch"⟩)⟩
    else ⟨[], none, .ok entry.content⟩
  | none =>
    match upstreamKeyForDelivery entry.content with
    | none =>
      ⟨[], none, .error (.domain ⟨"redeem_delivery_format_unsupported", 409, "Inventory format requires review"⟩)⟩
    | some key =>
      match requester key with
      | none => ⟨[key], none, .error .request⟩
      | some (answered, cdkey) =>
        if answered ≠ sku ∨ isRedeemCode sku cdkey = false then
          ⟨[key], none, .error (.domain ⟨"redeem_delivery_response_mismatch", 502, "Warehouse response mismatch"⟩)⟩
        else
          let content := formatInventoryDelivery cdkey (some resellerRedeemUrl)
          if changed then ⟨[key], some ⟨content, some sku⟩, .ok content⟩
          else match replay with
            | some content => ⟨[key], none, .ok content⟩
            | none =>
              ⟨[key], none, .error (.domain ⟨"redeem_delivery_state_changed", 409, "Inventory ownership changed"⟩)⟩

/-- `batchIssueEnvelopeSchema`. -/
structure BatchIssue where
  sku : Utf16
  count : Nat
  codes : List Utf16

def BatchIssue.valid (b : BatchIssue) : Bool :=
  decide (0 < b.count ∧ 1 ≤ b.codes.length ∧ b.codes.length ≤ 100) &&
    b.codes.all fun code => decide (20 ≤ code.length ∧ code.length ≤ 200)

def generateRedeemSellableInventory (sku : Utf16) (count : Nat) (batch : BatchIssue) :
    Except ConvertError (List ConvertibleStock) :=
  if batch.valid = false then .error .request
  else if batch.sku ≠ sku ∨ batch.count ≠ count ∨ batch.codes.length ≠ count ∨ ¬batch.codes.Nodup ∨
      batch.codes.any (fun code => !(skuPrefix sku ++ ascii "-").isPrefixOf code) = true then
    .error (.domain ⟨"redeem_warehouse_batch_mismatch", 502,
      "Redemption batch does not match the requested SKU and count"⟩)
  else .ok (batch.codes.map fun code => ⟨formatInventoryDelivery code (some resellerRedeemUrl),
    [.plus, .fiveX, .twentyX].find? fun k => k.text == sku⟩)

/-- Every later call for the entry's SKU returns its content and asks nobody. -/
def AcceptedAgain (entry : ConvertibleStock) : Prop :=
  ∀ sku ∈ entry.redeemSku, ∀ requester changed replay,
    convertReservedStock entry sku requester changed replay = ⟨[], none, .ok entry.content⟩

/-! ## Converted entries -/

variable {sku : PhRedeemSku} {code key url : Utf16}

theorem isCodeGroups_length {n : Nat} {us : Utf16} (h : isCodeGroups n us = true) : us.length = 5 * n := by
  induction n, us using isCodeGroups.induct with
  | case1 us => simpa [isCodeGroups] using h
  | case2 n d a b c e us ih =>
    simp only [isCodeGroups, Bool.and_eq_true] at h
    simp only [length_cons, ih h.2]
    omega
  | case3 us n hshort =>
    unfold isCodeGroups at h
    split at h
    · next heq => cases heq
    · next heq => exact absurd rfl (hshort _ _ _ _ _ _)
    · cases h

theorem isRedeemCode_length (h : isRedeemCode sku code = true) : code.length = (skuPrefix sku.text).length + 20 := by
  simp only [isRedeemCode, Bool.and_eq_true, isPrefixOf_iff_prefix] at h
  obtain ⟨⟨rest, rfl⟩, hgroups⟩ := h
  rw [drop_left] at hgroups
  rw [length_append, isCodeGroups_length hgroups]

theorem isConverted_format (sku : PhRedeemSku) (code : Utf16) :
    isConverted sku (formatInventoryDelivery code (some resellerRedeemUrl)) = isRedeemCode sku code := by
  have hdrop : (formatInventoryDelivery code (some resellerRedeemUrl)).drop 4 =
      code ++ urlLine resellerRedeemUrl := rfl
  rw [isConverted, hdrop, Bool.eq_iff_iff, Bool.and_eq_true, beq_iff_eq]
  constructor
  · rintro ⟨hcode, heq⟩
    rwa [append_cancel_right (append_cancel_left heq)]
  · intro h
    rw [take_append_of_le_length (isRedeemCode_length h).ge, take_of_length_le (isRedeemCode_length h).le]
    exact ⟨h, rfl⟩

/-- A content with a code in it is accepted again exactly where the code has the strict form. -/
theorem acceptedAgain_iff : AcceptedAgain ⟨formatInventoryDelivery code (some resellerRedeemUrl), some sku⟩ ↔
    isRedeemCode sku code = true := by
  constructor
  · intro h
    have hanswer := congrArg StockConversion.answer (h sku rfl (fun _ => none) false none)
    by_contra hcode
    rw [Bool.not_eq_true] at hcode
    simp [convertReservedStock, isConverted_format, hcode] at hanswer
  · rintro hcode k ⟨⟩ requester changed replay
    simp [convertReservedStock, isConverted_format, hcode]

/-! ## Raw entries -/

theorem isKeyUnit_space {u : UInt16} (h : isKeyUnit u = true) : isWhitespace u = false := by
  simp [isKeyUnit, isWhitespace, UInt16.le_iff_toNat_le, ← UInt16.toNat_inj, unit] at h ⊢
  omega

theorem trim_eq_iff {us : Utf16} : trim us = us ↔ us.dropWhile isWhitespace = us ∧ us.rdropWhile isWhitespace = us := by
  constructor
  · intro h
    have hdrop : us.dropWhile isWhitespace = us := by
      refine (dropWhile_suffix _).eq_of_length_le ?_
      conv_lhs => rw [← h]
      exact ( rdropWhile_prefix _ _).length_le
    rw [trim, hdrop] at h
    exact ⟨hdrop, h⟩
  · rintro ⟨hdrop, hlast⟩
    rw [trim, hdrop, hlast]

/-- `[A-Za-z0-9_-]{1,64}`. -/
def IsKey (key : Utf16) : Prop := (∀ u ∈ key, isKeyUnit u = true) ∧ 1 ≤ key.length ∧ key.length ≤ 64

theorem IsKey.trimmed (h : IsKey key) : trim key = key := by
  have hspace : ∀ u ∈ key, ¬isWhitespace u = true := fun u hu => by simp [isKeyUnit_space (h.1 u hu)]
  exact (trim_eq_iff).mpr ⟨dropWhile_eq_self_iff.mpr fun hpos => hspace _ (get_mem _ _),
    rdropWhile_eq_self_iff.mpr fun hne => hspace _ (getLast_mem hne)⟩

theorem afterLabel_label (label rest : Utf16) : afterLabel label (label ++ colon ++ rest) = some rest := by
  simp [afterLabel, colon]

theorem IsKey.unlabelled (h : IsKey key) : afterLabel cdkLabel key = none := by
  unfold afterLabel
  split
  · split
    · next u rest hdrop =>
      have hu := h.1 u (mem_of_mem_drop (hdrop ▸ mem_cons_self))
      split
      · next hcolon => rcases hcolon with rfl | rfl <;> exact absurd hu (by decide)
      · rfl
    · rfl
  · rfl

theorem upstreamKeyForDelivery_key (h : IsKey key) : upstreamKeyForDelivery key = some key := by
  simp only [upstreamKeyForDelivery, h.trimmed, h.unlabelled, Option.map_none, Option.getD_none,
    takeWhile_eq_self_iff.mpr h.1, dropWhile_eq_nil_iff.mpr h.1]
  exact if_pos ⟨h.2.1, h.2.2, rfl⟩

theorem upstreamKeyForDelivery_url (h : IsKey key) (hne : url ≠ []) (htrim : trim url = url) :
    upstreamKeyForDelivery (formatInventoryDelivery key (some url)) = some key ↔ isHttpsUrl url = true := by
  obtain ⟨u, us, rfl⟩ := exists_cons_of_ne_nil hne
  obtain ⟨c, cs, rfl⟩ := exists_cons_of_length_pos h.2.1
  obtain ⟨hfirst, hlast⟩ := (trim_eq_iff).mp htrim
  have htext : trim (cdkLabel ++ colon ++ (c :: cs ++ urlLine (u :: us))) =
      cdkLabel ++ colon ++ (c :: cs ++ urlLine (u :: us)) := by
    refine (trim_eq_iff).mpr ⟨rfl, rdropWhile_eq_self_iff.mpr fun hne => ?_⟩
    rw [rdropWhile_eq_self_iff] at hlast
    simpa [urlLine] using hlast (cons_ne_nil _ _)
  have hbody : (c :: cs ++ urlLine (u :: us)).dropWhile isWhitespace = c :: cs ++ urlLine (u :: us) :=
    dropWhile_cons_of_neg (by simp [isKeyUnit_space (h.1 c mem_cons_self)])
  have hkey : (urlLine (u :: us)).takeWhile isKeyUnit = [] := rfl
  have hrest : (urlLine (u :: us)).dropWhile isKeyUnit = urlLine (u :: us) := rfl
  have hline : isUrlLine (urlLine (u :: us)) = isHttpsUrl (u :: us) := by
    show (false || (afterLabel urlLabel (urlLabel ++ colon ++ u :: us)).any _) = _
    rw [afterLabel_label, Option.any_some, hfirst, Bool.false_or]
  simp only [formatInventoryDelivery, upstreamKeyForDelivery, htext, afterLabel_label, Option.map_some, Option.getD_some,
    hbody, takeWhile_append_of_pos h.1, dropWhile_append_of_pos h.1, hkey, hrest, append_nil, hline]
  constructor
  · intro hsome
    by_contra hurl
    rw [if_neg fun hif => hurl hif.2.2] at hsome
    cases hsome
  · intro hurl
    exact if_pos ⟨h.2.1, h.2.2, hurl⟩

/-! ## What is accepted again -/

/-- A converted entry is accepted again; a generated one where its code has the strict form. The key of a raw entry
is read back where its URL, if it has one, has the form that is read. -/
theorem converted_again_iff (entry sku requester changed replay) (batchSku count batch entries) (key usageUrl) :
    (∀ e ∈ (convertReservedStock entry sku requester changed replay).written, AcceptedAgain e) ∧
    (generateRedeemSellableInventory batchSku count batch = .ok entries →
      ∀ e ∈ entries, ∀ k ∈ e.redeemSku, ∃ code ∈ batch.codes,
        e.content = formatInventoryDelivery code (some resellerRedeemUrl) ∧
          (AcceptedAgain e ↔ isRedeemCode k code = true)) ∧
    (IsKey key → (∀ url ∈ usageUrl, trim url = url) →
      (upstreamKeyForDelivery (formatInventoryDelivery key usageUrl) = some key ↔
        ∀ url ∈ usageUrl, url ≠ [] → isHttpsUrl url = true)) := by
  refine ⟨fun e h => ?_, fun h e he k hk => ?_, fun h htrim => ?_⟩
  · unfold convertReservedStock at h
    repeat' split at h
    all_goals try cases h
    next hanswer _ => exact acceptedAgain_iff.mpr (Bool.not_eq_false _ ▸ (not_or.mp hanswer).2)
  · unfold generateRedeemSellableInventory at h
    split at h
    · cases h
    · split at h
      · cases h
      · cases h
        obtain ⟨code, hcode, rfl⟩ := mem_map.mp he
        refine ⟨code, hcode, rfl, ?_⟩
        rw [show ([.plus, .fiveX, .twentyX].find? fun k : PhRedeemSku => k.text == batchSku) = some k from hk]
        exact acceptedAgain_iff
  · cases usageUrl with
    | none => exact iff_of_true (upstreamKeyForDelivery_key h) nofun
    | some url =>
      by_cases hne : url = []
      · subst hne
        refine iff_of_true (upstreamKeyForDelivery_key h) ?_
        rintro url ⟨⟩ hne
        exact absurd rfl hne
      · rw [upstreamKeyForDelivery_url h hne (htrim _ rfl)]
        constructor
        · rintro hurl url ⟨⟩ -
          exact hurl
        · exact fun hall => hall url rfl hne

def looseBatch : BatchIssue := ⟨PhRedeemSku.plus.text, 1, [ascii "gpt-plus-ph-0000000000"]⟩

theorem not_converted_again : ¬∀ sku count batch entries, generateRedeemSellableInventory sku count batch = .ok entries →
    ∀ e ∈ entries, AcceptedAgain e := by
  intro hall
  have h := hall PhRedeemSku.plus.text 1 looseBatch
    [⟨formatInventoryDelivery (ascii "gpt-plus-ph-0000000000") (some resellerRedeemUrl), some .plus⟩] (by decide)
    _ mem_cons_self
  exact absurd (acceptedAgain_iff.mp h) (by decide)

end Gmshop.Redeem
