import Mathlib
import GmshopEdge.ExchangeRates.Admitted

/-!
# Money inputs

`lib/money-input.ts`: the amounts of a form, and how `decimalToUnits` rounds.

    decimalToUnits value d = ⌊value · 10 ^ d⌋, ⌈value · 10 ^ d⌉, or the value where it is exact
    parseMajorInput (formatMinorInput n d) d = n  (money_codecs)
-/

namespace Gmshop

open List Digits Bool

/-- `minor.replace(/^0+(?=\d)/, "")`. -/
def dropZeros : List Char → List Char
  | '0' :: c :: cs => if c.isDigit then dropZeros (c :: cs) else '0' :: c :: cs
  | cs => cs

def formatMinorInput (minor : Option (List Char)) (decimals : Nat) : List Char :=
  if (minor.getD []).isEmpty then []
  else
    let normalized := dropZeros (minor.getD [])
    if decimals = 0 then normalized
    else
      let padded := padStart (decimals + 1) normalized
      padded.take (padded.length - decimals) ++ '.' :: padded.drop (padded.length - decimals)

/-- `\d+(?:\.\d{0,decimals})?`, or `\d+` where there are no decimals. -/
def isMajorInput (text : List Char) (decimals : Nat) : Bool :=
  !(splitPoint text).1.isEmpty && (splitPoint text).1.all Char.isDigit && (splitPoint text).2.all fun fraction =>
    decimals != 0 && fraction.all Char.isDigit && decide (fraction.length ≤ decimals)

/-- A blank input has no amount, `null`; there is no answer, `undefined`, to one that is none. -/
def parseMajorInput (value : List Char) (decimals : Nat) : Option (Option (List Char)) :=
  let normalized := trimText value
  if normalized.isEmpty then some none
  else if isMajorInput normalized decimals = false then none
  else
    let whole := (splitPoint normalized).1
    let fraction := (splitPoint normalized).2.getD []
    some (some (Nat.toDigits 10 (Digits.value whole * 10 ^ decimals + Digits.value (padEnd decimals fraction))))

variable {text value whole : List Char} {decimals : Nat}

/-! ## What a form shows is read back -/

theorem isTextSpace_digit {c : Char} (h : c.isDigit = true) : isTextSpace c = false := by
  obtain ⟨hlow, hhigh⟩ := digit_range h
  simp only [isTextSpace, or_eq_false_iff, and_eq_false_imp, decide_eq_true_eq, decide_eq_false_iff_not,
    beq_eq_false_iff_ne]
  omega

theorem trimText_digits (h : ∀ c ∈ text, c.isDigit = true ∨ c = '.') : trimText text = text := by
  have hspace : ∀ c ∈ text, ¬isTextSpace c = true := by
    intro c hc
    rcases h c hc with hdigit | rfl
    · rw [isTextSpace_digit hdigit]
      decide
    · decide
  rw [trimText, dropWhile_eq_self_iff.mpr fun hpos => hspace _ (get_mem _ _), rdropWhile_eq_self_iff]
  exact fun hne => hspace _ (getLast_mem hne)

theorem dropZeros_toDigits (n : Nat) : dropZeros (Nat.toDigits 10 n) = Nat.toDigits 10 n := by
  by_cases hn : n = 0
  · rw [hn]
    rfl
  · obtain ⟨c, cs, hcs, hc, -⟩ := head_toDigits hn
    rw [hcs]
    unfold dropZeros
    split
    · next heq => exact absurd (cons.inj heq).1 hc
    · rfl

theorem parseMajorInput_whole (hne : whole ≠ []) (h : IsDigits whole) :
    parseMajorInput whole 0 = some (some (Nat.toDigits 10 (Digits.value whole))) := by
  have hinput : isMajorInput whole 0 = true := by
    have hall : whole.all Char.isDigit = true := all_eq_true.mpr h
    rw [isMajorInput, splitPoint_whole h]
    simp [hne, hall]
  rw [parseMajorInput, trimText_digits fun c hc => .inl (h c hc), splitPoint_whole h]
  simp [hne, hinput, padEnd]

theorem parseMajorInput_point {fraction : List Char} (hd : decimals ≠ 0) (hne : whole ≠ []) (h : IsDigits whole)
    (hf : IsDigits fraction) (hlen : fraction.length = decimals) :
    parseMajorInput (whole ++ '.' :: fraction) decimals =
      some (some (Nat.toDigits 10 (Digits.value (whole ++ fraction)))) := by
  have htrim : trimText (whole ++ '.' :: fraction) = whole ++ '.' :: fraction := by
    refine trimText_digits fun c hc => ?_
    rcases mem_append.mp hc with hc | hc
    · exact .inl (h c hc)
    · rcases mem_cons.mp hc with rfl | hc
      · exact .inr rfl
      · exact .inl (hf c hc)
  have hinput : isMajorInput (whole ++ '.' :: fraction) decimals = true := by
    rw [isMajorInput, splitPoint_point fraction h]
    have hall : fraction.all Char.isDigit = true := all_eq_true.mpr hf
    have hwhole : whole.all Char.isDigit = true := all_eq_true.mpr h
    simp [hne, hall, hwhole, hd, hlen]
  have hpad : padEnd decimals fraction = fraction := by
    rw [padEnd, hlen, Nat.sub_self, replicate_zero, append_nil]
  rw [parseMajorInput, htrim, splitPoint_point fraction h]
  simp [hinput, hpad, value_append, hlen]

theorem parseMajorInput_formatMinorInput (n decimals : Nat) :
    parseMajorInput (formatMinorInput (some (Nat.toDigits 10 n)) decimals) decimals =
      some (some (Nat.toDigits 10 n)) := by
  have hdigits := isDigits_toDigits n
  have hvalue : Digits.value (Nat.toDigits 10 n) = n := Nat.ofDigitChars_ten_toDigits
  have hne : Nat.toDigits 10 n ≠ [] := by simp
  rw [formatMinorInput, Option.getD_some, if_neg (by simp), dropZeros_toDigits]
  split
  · next hd => rw [hd, parseMajorInput_whole hne hdigits, hvalue]
  · next hd =>
    have hpadded : IsDigits (padStart (decimals + 1) (Nat.toDigits 10 n)) := isDigits_padStart hdigits
    have hlen := length_padStart (decimals + 1) (Nat.toDigits 10 n)
    have hwhole := padded_whole n hd
    rw [parseMajorInput_point hd (by rintro hnil; rw [hnil] at hwhole; cases hwhole) (isDigits_of_isWhole hwhole)
      (fun c hc => hpadded c (mem_of_mem_drop hc)) (by rw [length_drop]; omega), take_append_drop, value_padStart,
      hvalue]

/-! ## Rounding -/

theorem decimalToUnits_rounded (h : isDecimal value = true) (hd : decimals ≤ 30) (rounding : DecimalRounding)
    {n k : Nat} (hn : n = decimalUnits value * 10 ^ (decimals - decimalPlaces value))
    (hk : k = decimalPlaces value - decimals) : decimalToUnits value decimals rounding =
      if rounding = .reject ∧ ¬10 ^ k ∣ n then .error (.rangeError "Amount exceeds supported precision")
      else .ok (n / 10 ^ k + if rounding = .up ∧ ¬10 ^ k ∣ n then 1 else 0) := by
  by_cases hp : decimalPlaces value ≤ decimals
  · rw [decimalToUnits_ok h hd hp, hk, Nat.sub_eq_zero_of_le hp, hn]
    simp
  · have hplaces := decimalPlaces_eq h
    have hfraction := fraction_digits h
    obtain ⟨base, hbase⟩ : ∃ b, b = Digits.value ((splitPoint value).1 ++
      ((splitPoint value).2.getD []).take decimals) := ⟨_, rfl⟩
    obtain ⟨rest, hrest⟩ : ∃ r, r = ((splitPoint value).2.getD []).drop decimals := ⟨_, rfl⟩
    have hdigits : IsDigits rest := fun c hc => hfraction c (mem_of_mem_drop (hrest ▸ hc))
    have hlen : rest.length = k := by rw [hrest, length_drop, hk, hplaces]
    have hlt := value_lt hdigits
    rw [hlen] at hlt
    have hunits : n = base * 10 ^ k + Digits.value rest := by
      rw [hn, Nat.sub_eq_zero_of_le (by omega), Nat.pow_zero, Nat.mul_one, decimalUnits, hbase, hrest,
        ← hlen, hrest, ← value_append, append_assoc, take_append_drop]
    have hdiv : n / 10 ^ k = base := by
      rw [hunits, Nat.add_comm, Nat.add_mul_div_right _ _ (Nat.pow_pos (by decide)), Nat.div_eq_of_lt hlt,
        Nat.zero_add]
    have hany : rest.any (· != '0') = true ↔ ¬10 ^ k ∣ n := by
      rw [hunits, Nat.dvd_add_right (Nat.dvd_mul_left _ _), any_eq_true]
      constructor
      · rintro ⟨c, hc, hne⟩ hdvd
        have hpos := value_pos hdigits hc (bne_iff_ne.mp hne)
        exact absurd (Nat.le_of_dvd hpos hdvd) (by omega)
      · intro hndvd
        by_contra hnone
        have hzeros : rest = replicate rest.length '0' := by
          refine eq_replicate_of_mem fun c hc => ?_
          by_contra hne
          exact hnone ⟨c, hc, bne_iff_ne.mpr hne⟩
        rw [hzeros, value_zeros] at hndvd
        exact hndvd (Nat.dvd_zero _)
    unfold decimalToUnits
    rw [if_neg (by omega), if_neg (by simp [h])]
    dsimp only
    rw [if_neg (by omega), ← hrest, ← hbase, hdiv]
    simp only [hany]
    split
    · rfl
    · split <;> rfl

theorem scaled_value (value : List Char) (decimals : Nat) :
    decimalValue value * 10 ^ decimals = ((decimalUnits value * 10 ^ (decimals - decimalPlaces value) : Nat) : ℚ) /
      ((10 ^ (decimalPlaces value - decimals) : Nat) : ℚ) := by
  have hpow : (10 : ℚ) ^ decimals * 10 ^ (decimalPlaces value - decimals) =
      10 ^ decimalPlaces value * 10 ^ (decimals - decimalPlaces value) := by
    rw [← pow_add, ← pow_add]
    congr 1
    omega
  unfold decimalValue
  push_cast
  field_simp
  rw [mul_assoc, hpow, mul_assoc]

theorem ceil_div (n : Nat) {m : Nat} (hm : 0 < m) : ⌈(n : ℚ) / m⌉₊ = n / m + if m ∣ n then 0 else 1 := by
  have hmq : (0 : ℚ) < m := by exact_mod_cast hm
  have hdiv := Nat.div_add_mod n m
  refine eq_of_forall_ge_iff fun u => ?_
  have hcast : (n : ℚ) ≤ u * m ↔ n ≤ m * u := by
    rw [Nat.mul_comm]
    exact_mod_cast Iff.rfl
  rw [Nat.ceil_le, div_le_iff₀ hmq, hcast]
  split
  · next hdvd =>
    rw [Nat.mod_eq_zero_of_dvd hdvd, Nat.add_zero] at hdiv
    rw [← hdiv, Nat.mul_le_mul_left_iff hm, Nat.mul_div_cancel_left _ hm, Nat.add_zero]
  · next hrest =>
    rw [Nat.dvd_iff_mod_eq_zero] at hrest
    rw [Nat.add_one_le_iff, ← Nat.mul_lt_mul_left hm]
    have hmod := Nat.mod_lt n hm
    constructor
    · intro hle
      omega
    · intro hlt
      have hnext : m * (n / m + 1) ≤ m * u := Nat.mul_le_mul_left _ (Nat.lt_of_mul_lt_mul_left hlt)
      rw [Nat.mul_succ] at hnext
      omega

/-! ## The codecs -/

/-- Units come back from their text, `decimalToUnits` rounds as its mode says, and a form reads what it shows. -/
theorem money_codecs :
    (∀ v decimals, decimals ≤ 30 → decimalToUnits (unitsToDecimal v decimals) decimals = .ok v) ∧
    (∀ value decimals, isDecimal value = true → decimals ≤ 30 →
      decimalToUnits value decimals .down = .ok ⌊decimalValue value * 10 ^ decimals⌋₊ ∧
      decimalToUnits value decimals .up = .ok ⌈decimalValue value * 10 ^ decimals⌉₊ ∧
      ∀ v, decimalToUnits value decimals .reject = .ok v ↔ (v : ℚ) = decimalValue value * 10 ^ decimals) ∧
    (∀ (minor : Option Nat) decimals,
      parseMajorInput (formatMinorInput (minor.map (Nat.toDigits 10)) decimals) decimals =
        some (minor.map (Nat.toDigits 10))) := by
  refine ⟨fun v decimals hd => decimalToUnits_unitsToDecimal v hd .reject, fun value decimals h hd => ?_,
    fun minor decimals => ?_⟩
  · have hm : 0 < 10 ^ (decimalPlaces value - decimals) := Nat.pow_pos (by decide)
    have hmq : ((10 ^ (decimalPlaces value - decimals) : Nat) : ℚ) ≠ 0 := by exact_mod_cast hm.ne'
    rw [scaled_value, Nat.floor_div_eq_div, ceil_div _ hm]
    simp only [decimalToUnits_rounded h hd _ rfl rfl]
    refine ⟨by simp, by simp [ite_not], fun v => ?_⟩
    rw [eq_div_iff hmq]
    split
    · next hinexact =>
      refine ⟨nofun, fun heq => absurd ?_ hinexact.2⟩
      have hunits : v * 10 ^ (decimalPlaces value - decimals) =
          decimalUnits value * 10 ^ (decimals - decimalPlaces value) := by exact_mod_cast heq
      exact ⟨v, by rw [← hunits, Nat.mul_comm]⟩
    · next hexact =>
      obtain ⟨q, hq⟩ := Decidable.of_not_not fun hn => hexact ⟨trivial, hn⟩
      rw [hq, Nat.mul_div_cancel_left _ hm, if_neg (by simp), Nat.add_zero, Except.ok.injEq, Nat.cast_mul,
        mul_comm (v : ℚ), mul_right_inj' hmq, Nat.cast_inj]
      exact eq_comm
  · cases minor with
    | none => rfl
    | some n => exact parseMajorInput_formatMinorInput n decimals

end Gmshop
