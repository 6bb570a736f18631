import Mathlib
import GmshopEdge.Lib.Digits

/-!
# Decimal amounts

`lib/money.ts`: amounts travel as decimal texts and are computed with as units of a scale, the text's
digits with the point moved. A text is a list of characters.

    decimalToUnits (unitsToDecimal u d) d = u  (decimalToUnits_unitsToDecimal)
-/

namespace Gmshop

open List Digits Bool

/-- What `money.ts` throws, with the message. -/
inductive NumberError where
  | rangeError (message : String)
  | typeError (message : String)
  deriving DecidableEq

inductive DecimalRounding where
  | reject | down | up
  deriving DecidableEq

/-- `value.split(".")`: what stands before the first point, and what stands behind it. -/
def splitPoint (value : List Char) : List Char × Option (List Char) :=
  (value.takeWhile (· != '.'), match value.dropWhile (· != '.') with
    | [] => none
    | _ :: fraction => some fraction)

/-- `0|[1-9]\d*`. -/
def isWhole : List Char → Bool
  | [] => false
  | c :: cs => (c == '0' && cs.isEmpty) || (c != '0' && (c :: cs).all Char.isDigit)

/-- `DECIMAL_PATTERN`. -/
def isDecimal (value : List Char) : Bool :=
  isWhole (splitPoint value).1 &&
    (splitPoint value).2.all fun fraction => !fraction.isEmpty && fraction.all Char.isDigit

def decimalToUnits (value : List Char) (decimals : Nat) (rounding : DecimalRounding := .reject) :
    Except NumberError Nat :=
  if 30 < decimals then .error (.rangeError "Invalid decimals")
  else if isDecimal value = false then .error (.typeError "Amount must be a non-negative decimal string")
  else
    let whole := (splitPoint value).1
    let fraction := (splitPoint value).2.getD []
    if fraction.length ≤ decimals then .ok (Digits.value (whole ++ padEnd decimals fraction))
    else
      let kept := fraction.take decimals
      let discarded := fraction.drop decimals
      if rounding = .reject ∧ discarded.any (· != '0') then .error (.rangeError "Amount exceeds supported precision")
      else
        let base := Digits.value (whole ++ kept)
        .ok (if rounding = .up ∧ discarded.any (· != '0') then base + 1 else base)

def unitsToDecimal (value decimals : Nat) : List Char :=
  if decimals = 0 then Nat.toDigits 10 value
  else
    let padded := padStart (decimals + 1) (Nat.toDigits 10 value)
    let whole := padded.take (padded.length - decimals)
    let fraction := trimZeros (padded.drop (padded.length - decimals))
    if fraction.isEmpty then whole else whole ++ '.' :: fraction

def convertByRate (amount : List Char) (amountDecimals : Nat) (rate : List Char)
    (rateDecimals outputDecimals : Nat) : Except NumberError (List Char) := do
  let amountUnits ← decimalToUnits amount amountDecimals
  let rateUnits ← decimalToUnits rate rateDecimals
  let numerator := amountUnits * rateUnits * 10 ^ outputDecimals
  let denominator := 10 ^ (amountDecimals + rateDecimals)
  return unitsToDecimal ((numerator + denominator - 1) / denominator) outputDecimals

def divideByRate (amount : List Char) (amountDecimals : Nat) (rate : List Char)
    (rateDecimals outputDecimals : Nat) : Except NumberError (List Char) := do
  let amountUnits ← decimalToUnits amount amountDecimals
  let rateUnits ← decimalToUnits rate rateDecimals
  if rateUnits = 0 then throw (.rangeError "Rate must be positive")
  let numerator := amountUnits * 10 ^ (rateDecimals + outputDecimals)
  let denominator := rateUnits * 10 ^ amountDecimals
  return unitsToDecimal ((numerator + denominator - 1) / denominator) outputDecimals

/-- The length of `value.split(".")[1]`. -/
def decimalPlaces (value : List Char) : Nat :=
  ((splitPoint value).2.map fun fraction => (fraction.takeWhile (· != '.')).length).getD 0

/-! ## What a decimal text stands for -/

def decimalUnits (value : List Char) : Nat :=
  Digits.value ((splitPoint value).1 ++ (splitPoint value).2.getD [])

def decimalValue (value : List Char) : ℚ := decimalUnits value / 10 ^ decimalPlaces value

variable {rate value whole : List Char} {decimals fromDecimals : Nat}

theorem splitPoint_whole (h : IsDigits whole) : splitPoint whole = (whole, none) := by
  have hpoint : ∀ c ∈ whole, (c != '.') = true := by
    intro c hc
    rw [bne_iff_ne]
    rintro rfl
    exact absurd (h _ hc) (by decide)
  unfold splitPoint
  rw [takeWhile_eq_self_iff.mpr hpoint, dropWhile_eq_nil_iff.mpr hpoint]

theorem splitPoint_point (fraction : List Char) (h : IsDigits whole) :
    splitPoint (whole ++ '.' :: fraction) = (whole, some fraction) := by
  have hpoint : ∀ c ∈ whole, (c != '.') = true := by
    intro c hc
    rw [bne_iff_ne]
    rintro rfl
    exact absurd (h _ hc) (by decide)
  unfold splitPoint
  rw [takeWhile_append_of_pos hpoint, dropWhile_append_of_pos hpoint]
  simp

section

variable (h : isDecimal value = true)
include h

theorem fraction_digits : IsDigits ((splitPoint value).2.getD []) := by
  unfold isDecimal at h
  cases hf : (splitPoint value).2 with
  | none => intro c hc; cases hc
  | some fraction =>
    rw [hf] at h
    simp only [Option.all_some, and_eq_true] at h
    exact all_eq_true.mp h.2.2

theorem decimalPlaces_eq : decimalPlaces value = ((splitPoint value).2.getD []).length := by
  have hdigits := fraction_digits h
  unfold decimalPlaces
  cases hf : (splitPoint value).2 with
  | none => rfl
  | some fraction =>
    rw [hf] at hdigits
    simp only [Option.map_some, Option.getD_some] at hdigits ⊢
    rw [takeWhile_eq_self_iff.mpr]
    intro c hc
    rw [bne_iff_ne]
    rintro rfl
    exact absurd (hdigits _ hc) (by decide)

theorem decimalToUnits_ok (hd : decimals ≤ 30) (hp : decimalPlaces value ≤ decimals)
    (rounding : DecimalRounding) :
    decimalToUnits value decimals rounding = .ok (decimalUnits value * 10 ^ (decimals - decimalPlaces value)) := by
  unfold decimalToUnits
  rw [if_neg (by omega), if_neg (by simp [h])]
  rw [decimalPlaces_eq h] at hp ⊢
  rw [if_pos hp, padEnd, ← append_assoc, value_append, value_zeros, length_replicate, Nat.add_zero]
  rfl

end

theorem isWhole_toDigits (n : Nat) : isWhole (Nat.toDigits 10 n) = true := by
  by_cases hn : n = 0
  · rw [hn]
    rfl
  · obtain ⟨c, cs, hcs, hc, -⟩ := head_toDigits hn
    have hall := isDigits_toDigits n
    rw [hcs] at hall ⊢
    have hdigits : (c :: cs).all Char.isDigit = true := all_eq_true.mpr hall
    simp [isWhole, hc, hdigits]

theorem padded_whole (value : Nat) (hd : decimals ≠ 0) :
    isWhole ((padStart (decimals + 1) (Nat.toDigits 10 value)).take
      ((padStart (decimals + 1) (Nat.toDigits 10 value)).length - decimals)) = true := by
  have hlen := length_padStart (decimals + 1) (Nat.toDigits 10 value)
  have hdigits := isDigits_toDigits value
  by_cases hshort : (Nat.toDigits 10 value).length ≤ decimals
  · -- the digits do not reach the point
    have hone : (padStart (decimals + 1) (Nat.toDigits 10 value)).length - decimals = 1 := by omega
    rw [hone, padStart]
    obtain ⟨k, hk⟩ : ∃ k, decimals + 1 - (Nat.toDigits 10 value).length = k + 1 :=
      ⟨decimals - (Nat.toDigits 10 value).length, by omega⟩
    rw [hk, replicate_succ]
    rfl
  · have hvalue : value ≠ 0 := by
      rintro rfl
      simp at hshort
      omega
    obtain ⟨c, cs, hcs, hc, -⟩ := head_toDigits hvalue
    have hnil : decimals + 1 - (Nat.toDigits 10 value).length = 0 := by omega
    rw [padStart, hnil, replicate_zero, nil_append, hcs]
    rw [hcs] at hdigits hshort
    obtain ⟨k, hk⟩ : ∃ k, (c :: cs).length - decimals = k + 1 :=
      ⟨(c :: cs).length - decimals - 1, by omega⟩
    rw [hk, take_succ_cons]
    have htake : (c :: cs.take k).all Char.isDigit = true := by
      refine all_eq_true.mpr fun x hx => hdigits x ?_
      rcases mem_cons.mp hx with rfl | hx
      · exact mem_cons_self
      · exact mem_cons_of_mem _ (mem_of_mem_take hx)
    simp [isWhole, hc, htake]

theorem isDigits_of_isWhole {cs : List Char} (h : isWhole cs = true) : IsDigits cs := by
  cases cs with
  | nil => intro c hc; cases hc
  | cons c cs =>
    simp only [isWhole, or_eq_true, and_eq_true, beq_iff_eq] at h
    rcases h with ⟨rfl, hnil⟩ | ⟨-, hall⟩
    · rw [isEmpty_iff.mp hnil]
      decide
    · exact all_eq_true.mp hall

theorem joinPoint_spec {fraction : List Char} (hwhole : isWhole whole = true) (hfraction : IsDigits fraction)
    {text : List Char} (htext : text = if fraction.isEmpty then whole else whole ++ '.' :: fraction) :
    isDecimal text = true ∧ decimalPlaces text = fraction.length ∧
      decimalUnits text = Digits.value (whole ++ fraction) := by
  by_cases hempty : fraction = []
  · subst hempty
    rw [isEmpty_nil, if_pos rfl] at htext
    have hsplit := splitPoint_whole (isDigits_of_isWhole hwhole)
    rw [htext, isDecimal, decimalPlaces, decimalUnits, hsplit, hwhole]
    exact ⟨rfl, rfl, rfl⟩
  · have hne : fraction.isEmpty = false := isEmpty_eq_false_iff.mpr hempty
    rw [hne, if_neg Bool.false_ne_true] at htext
    have hsplit := splitPoint_point fraction (isDigits_of_isWhole hwhole)
    have hdecimal : isDecimal (whole ++ '.' :: fraction) = true := by
      have hall : fraction.all Char.isDigit = true := all_eq_true.mpr hfraction
      rw [isDecimal, hsplit]
      simp [hwhole, hempty, hall]
    rw [htext]
    refine ⟨hdecimal, ?_, ?_⟩
    · rw [decimalPlaces_eq hdecimal, hsplit]
      rfl
    · rw [decimalUnits, hsplit]
      rfl

theorem unitsToDecimal_parts (value : Nat) (hd : decimals ≠ 0) :
    ∃ whole fraction k, isWhole whole = true ∧ IsDigits fraction ∧ fraction.length + k = decimals ∧
      (∀ c ∈ fraction.getLast?, c ≠ '0') ∧
      unitsToDecimal value decimals = (if fraction.isEmpty then whole else whole ++ '.' :: fraction) ∧
      Digits.value (whole ++ fraction ++ replicate k '0') = value := by
  have hpadded : IsDigits (padStart (decimals + 1) (Nat.toDigits 10 value)) :=
    isDigits_padStart (isDigits_toDigits value)
  have hlen := length_padStart (decimals + 1) (Nat.toDigits 10 value)
  have hvalue := value_padStart (decimals + 1) (Nat.toDigits 10 value)
  have hwhole := padded_whole value hd
  obtain ⟨padded, hp⟩ : ∃ p, p = padStart (decimals + 1) (Nat.toDigits 10 value) := ⟨_, rfl⟩
  have htext : unitsToDecimal value decimals =
      if (trimZeros (padded.drop (padded.length - decimals))).isEmpty then padded.take (padded.length - decimals)
      else padded.take (padded.length - decimals) ++ '.' :: trimZeros (padded.drop (padded.length - decimals)) := by
    rw [unitsToDecimal, if_neg hd, hp]
  rw [← hp] at hpadded hlen hvalue hwhole
  have hdrop : (padded.drop (padded.length - decimals)).length = decimals := by
    rw [length_drop]
    omega
  have hdigits : IsDigits (padded.drop (padded.length - decimals)) :=
    fun c hc => hpadded c (mem_of_mem_drop hc)
  obtain ⟨k, hk⟩ := trimZeros_append (padded.drop (padded.length - decimals))
  have hsize := congrArg length hk
  rw [hdrop, length_append, length_replicate] at hsize
  refine ⟨_, _, k, hwhole, isDigits_trimZeros hdigits, hsize.symm, getLast_trimZeros _, htext, ?_⟩
  rw [append_assoc, ← hk, take_append_drop]
  exact hvalue.trans Nat.ofDigitChars_ten_toDigits

theorem unitsToDecimal_spec (value decimals : Nat) : isDecimal (unitsToDecimal value decimals) = true ∧
      decimalPlaces (unitsToDecimal value decimals) ≤ decimals ∧
      decimalUnits (unitsToDecimal value decimals) *
        10 ^ (decimals - decimalPlaces (unitsToDecimal value decimals)) = value := by
  by_cases hd : decimals = 0
  · have hsplit := splitPoint_whole (isDigits_toDigits value)
    rw [unitsToDecimal, if_pos hd, isDecimal, decimalPlaces, decimalUnits, hsplit, isWhole_toDigits]
    refine ⟨rfl, Nat.zero_le _, ?_⟩
    rw [Option.getD_none, append_nil, hd, Nat.zero_sub, Nat.pow_zero, Nat.mul_one]
    exact Nat.ofDigitChars_ten_toDigits
  · obtain ⟨whole, fraction, k, hwhole, hdigits, hsize, -, htext, hvalue⟩ := unitsToDecimal_parts value hd
    obtain ⟨hdecimal, hplaces, hunits⟩ := joinPoint_spec hwhole hdigits htext
    refine ⟨hdecimal, by omega, ?_⟩
    rw [value_append _ (replicate k '0'), value_zeros, length_replicate, Nat.add_zero] at hvalue
    rw [hplaces, hunits, show decimals - fraction.length = k by omega]
    exact hvalue

theorem unitsToDecimal_last {value : Nat} (h : 0 < decimalPlaces (unitsToDecimal value decimals)) :
    ¬10 ∣ decimalUnits (unitsToDecimal value decimals) := by
  by_cases hd : decimals = 0
  · have hplaces := (unitsToDecimal_spec value decimals).2.1
    omega
  · obtain ⟨whole, fraction, k, hwhole, hdigits, -, hlast, htext, -⟩ := unitsToDecimal_parts value hd
    obtain ⟨-, hplaces, hunits⟩ := joinPoint_spec hwhole hdigits htext
    rw [hplaces] at h
    obtain ⟨digits, c, rfl⟩ := (eq_nil_or_concat' fraction).resolve_left (length_pos_iff.mp h)
    have hzero := hlast c (by simp)
    have hdigit := digit_range (hdigits c (by simp))
    rw [hunits, ← append_assoc, value_append, length_singleton, value_singleton]
    have hcode : c.toNat ≠ 48 := fun hc => hzero (Char.ext (UInt32.toNat_inj.mp hc))
    omega

theorem decimalPlaces_unitsToDecimal_le (value decimals limit : Nat) :
    decimalPlaces (unitsToDecimal value decimals) ≤ limit ↔ 10 ^ (decimals - limit) ∣ value := by
  obtain ⟨-, hplaces, hvalue⟩ := unitsToDecimal_spec value decimals
  constructor
  · intro h
    rw [← hvalue]
    exact Dvd.dvd.mul_left (pow_dvd_pow 10 (by omega)) _
  · intro h
    by_contra hlong
    refine unitsToDecimal_last (by omega : 0 < decimalPlaces (unitsToDecimal value decimals)) ?_
    -- the zeros of the value go beyond those that were taken off
    have hsplit : decimals - limit = decimals - decimalPlaces (unitsToDecimal value decimals) +
        (decimalPlaces (unitsToDecimal value decimals) - limit) := by omega
    have hunits : 10 ^ (decimals - limit) ∣ decimalUnits (unitsToDecimal value decimals) *
        10 ^ (decimals - decimalPlaces (unitsToDecimal value decimals)) := by
      rw [hvalue]
      exact h
    rw [hsplit, pow_add, Nat.mul_comm] at hunits
    have hrest := Nat.dvd_of_mul_dvd_mul_right (pow_pos (by decide) _) hunits
    exact (dvd_pow_self 10 (by omega)).trans hrest

theorem decimalToUnits_unitsToDecimal (value : Nat) (hd : decimals ≤ 30) (rounding : DecimalRounding) :
    decimalToUnits (unitsToDecimal value decimals) decimals rounding = .ok value := by
  obtain ⟨hdecimal, hplaces, hvalue⟩ := unitsToDecimal_spec value decimals
  rw [decimalToUnits_ok hdecimal hd hplaces, hvalue]

theorem decimalValue_unitsToDecimal (value decimals : Nat) :
    decimalValue (unitsToDecimal value decimals) = value / 10 ^ decimals := by
  obtain ⟨-, hplaces, hvalue⟩ := unitsToDecimal_spec value decimals
  generalize unitsToDecimal value decimals = text at hplaces hvalue
  have hpow : (10 : ℚ) ^ decimals = 10 ^ decimalPlaces text * 10 ^ (decimals - decimalPlaces text) := by
    rw [← pow_add]
    congr 1
    omega
  unfold decimalValue
  rw [← hvalue, hpow]
  push_cast
  field_simp

/-! ## Rounding up -/

theorem ceil_bounds (n : Nat) {d : Nat} (hd : 0 < d) :
    (n : ℚ) / d ≤ ((n + d - 1) / d : Nat) ∧ (((n + d - 1) / d : Nat) : ℚ) < n / d + 1 := by
  have hdq : (0 : ℚ) < d := by exact_mod_cast hd
  have hdiv := Nat.div_add_mod (n + d - 1) d
  have hmod := Nat.mod_lt (n + d - 1) hd
  generalize (n + d - 1) / d = c at hdiv
  constructor
  · rw [div_le_iff₀ hdq]
    have hle : n ≤ c * d := by
      rw [Nat.mul_comm]
      omega
    exact_mod_cast hle
  · have hlt : c * d < n + d := by
      rw [Nat.mul_comm]
      omega
    have hq : (c : ℚ) * d < n + d := by exact_mod_cast hlt
    rw [← sub_lt_iff_lt_add, lt_div_iff₀ hdq, sub_mul, one_mul]
    exact sub_lt_iff_lt_add.mpr hq

/-- An amount of minor units at a rate, in minor units of `toDecimals` decimals. -/
def convertedAmount (amount fromDecimals toDecimals : Nat) (rate : ℚ) : ℚ :=
  amount / 10 ^ fromDecimals * rate * 10 ^ toDecimals

section

variable (amount toDecimals : Nat) (hfrom : fromDecimals ≤ 30) (hrate : isDecimal rate = true) (hplaces : decimalPlaces rate ≤ 30)
include amount toDecimals hfrom hrate hplaces

theorem convertByRate_ok :
    ∃ n : Nat, convertByRate (unitsToDecimal amount fromDecimals) fromDecimals rate
        (decimalPlaces rate) toDecimals = .ok (unitsToDecimal n toDecimals) ∧
      convertedAmount amount fromDecimals toDecimals (decimalValue rate) ≤ n ∧
      (n : ℚ) < convertedAmount amount fromDecimals toDecimals (decimalValue rate) + 1 := by
  have hamount := decimalToUnits_unitsToDecimal amount hfrom .reject
  have hunits := decimalToUnits_ok hrate hplaces (Nat.le_refl _) .reject
  rw [Nat.sub_self, Nat.pow_zero, Nat.mul_one] at hunits
  refine ⟨_, by rw [convertByRate, hamount, hunits]; rfl, ?_⟩
  have hexact : convertedAmount amount fromDecimals toDecimals (decimalValue rate) =
      ((amount * decimalUnits rate * 10 ^ toDecimals : Nat) : ℚ) /
        ((10 ^ (fromDecimals + decimalPlaces rate) : Nat) : ℚ) := by
    unfold convertedAmount decimalValue
    push_cast
    rw [pow_add]
    field_simp
  rw [hexact]
  exact ceil_bounds _ (Nat.pos_of_ne_zero (by positivity))

theorem divideByRate_ok (hpos : 0 < decimalUnits rate) :
    ∃ n : Nat, divideByRate (unitsToDecimal amount fromDecimals) fromDecimals rate
        (decimalPlaces rate) toDecimals = .ok (unitsToDecimal n toDecimals) ∧
      convertedAmount amount fromDecimals toDecimals (1 / decimalValue rate) ≤ n ∧
      (n : ℚ) < convertedAmount amount fromDecimals toDecimals (1 / decimalValue rate) + 1 := by
  have hamount := decimalToUnits_unitsToDecimal amount hfrom .reject
  have hunits := decimalToUnits_ok hrate hplaces (Nat.le_refl _) .reject
  rw [Nat.sub_self, Nat.pow_zero, Nat.mul_one] at hunits
  refine ⟨_, by rw [divideByRate, hamount, hunits]; simp [hpos.ne', bind, Except.bind, pure, Except.pure]; rfl, ?_⟩
  have hposq : (0 : ℚ) < decimalUnits rate := by exact_mod_cast hpos
  have hexact : convertedAmount amount fromDecimals toDecimals (1 / decimalValue rate) =
      ((amount * 10 ^ (decimalPlaces rate + toDecimals) : Nat) : ℚ) /
        ((decimalUnits rate * 10 ^ fromDecimals : Nat) : ℚ) := by
    unfold convertedAmount decimalValue
    push_cast
    rw [pow_add]
    field_simp
  rw [hexact]
  exact ceil_bounds _ (Nat.mul_pos hpos (Nat.pos_of_ne_zero (by positivity)))

end

end Gmshop
