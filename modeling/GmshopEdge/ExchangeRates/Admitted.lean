import GmshopEdge.ExchangeRates.Quote

/-!
# Admitted rates

The rate form (`exchange-rates/server/admin.ts`) takes a text of up to 80 characters. `decimalToUnits` takes 30
places, the adjustment adds up to four places and its inverse twelve.

    the rate is adjusted and every quote by it is positive  ↔  FewPlaces rate bps  (admittedRate_usable)
-/

namespace Gmshop

/-! ## The form -/

def isTextSpace (c : Char) : Bool :=
  let n := c.toNat
  (0x0009 ≤ n && n ≤ 0x000D) || n == 0x0020 || n == 0x00A0 || n == 0x1680 || (0x2000 ≤ n && n ≤ 0x200A) ||
    n == 0x2028 || n == 0x2029 || n == 0x202F || n == 0x205F || n == 0x3000 || n == 0xFEFF

def trimText (text : List Char) : List Char := (text.dropWhile isTextSpace).rdropWhile isTextSpace

/-- What `rateSchema` makes of a text. -/
def rateSchema (text : List Char) : Option (List Char) :=
  let rate := trimText text
  if rate.length ≤ 80 ∧ isExchangeRate rate = true then some rate else none

/-- `adjustmentBps` of `saveSchema`. -/
def adjustmentSchema (bps : Int) : Bool := decide (-9999 ≤ bps ∧ bps ≤ 100000)

theorem rateSchema_pattern {text rate : List Char} (h : rateSchema text = some rate) : isExchangeRate rate = true := by
  unfold rateSchema at h
  dsimp only at h
  split at h
  · next hvalid => exact Option.some.inj h ▸ hvalid.2
  · cases h

/-! ## Quotes by one rate -/

/-- A quote that the rate row decides: its pair, a positive amount, currencies with at most eight decimals. -/
structure QuoteBy (r : ExchangeRate) (currencyDecimals : Nat → Nat) (input : QuoteInput) : Prop where
  pair : r.isFor input.currency input.paymentCurrency = true
  different : input.currency ≠ input.paymentCurrency
  positive : 0 < input.amountMinor
  fromDecimals : input.currencyDecimals ≤ 8
  toDecimals : currencyDecimals input.paymentCurrency ≤ 8

/-- The rate can be stored, and every quote by it succeeds with a positive amount. -/
structure Usable (rate : List Char) (bps : Int) : Prop where
  stored : ∃ adjusted, applyRateAdjustment rate bps = .ok adjusted
  quoted : ∀ r : ExchangeRate, r.rawRate = rate → r.adjustmentBps = bps → ∀ currencyDecimals input,
    QuoteBy r currencyDecimals input →
      ∃ quote, quotePaymentCurrency [r] currencyDecimals input = .ok quote ∧ 0 < quote.amountMinor

/-- The rate, the adjusted rate and the rate that an adjustment divides by have at most 30 places. -/
structure FewPlaces (rate : List Char) (bps : Int) : Prop where
  raw : decimalPlaces rate ≤ 30
  adjusted : 10 ^ (decimalPlaces rate + 4 - 30) ∣ decimalUnits rate * (10000 + bps).toNat
  inverse : bps ≠ 0 →
    10 ^ (decimalPlaces rate + 12 - 30) ∣ decimalUnits rate * 10000 * 10 ^ 12 / (10000 + bps).toNat

theorem exactAmount_pos {amount fromDecimals toDecimals : Nat} (multiply : Bool) {rate : ℚ} (hamount : 0 < amount)
    (hrate : 0 < rate) : 0 < exactAmount amount fromDecimals toDecimals multiply rate := by
  unfold exactAmount convertedAmount
  cases multiply with
  | true =>
    positivity
  | false =>
    positivity

theorem QuoteBy.ok_iff {r : ExchangeRate} {currencyDecimals : Nat → Nat} {input : QuoteInput}
    (h : QuoteBy r currencyDecimals input) {rate : List Char}
    (hrate : effectiveRate r (r.baseCurrency == input.currency) = .ok rate) :
    (∃ quote, quotePaymentCurrency [r] currencyDecimals input = .ok quote ∧ 0 < quote.amountMinor) ↔
      decimalPlaces rate ≤ 30 := by
  obtain ⟨rate', hrate', hdecimal, hpos, -⟩ := effectiveRate_ok r (r.baseCurrency == input.currency)
  obtain rfl : rate = rate' := Except.ok.inj (hrate.symm.trans hrate')
  have hfind : findExchangeRate [r] input.currency input.paymentCurrency = some r := by
    unfold findExchangeRate
    rw [List.filter_cons_of_pos (by rw [h.pair]), List.filter_nil, List.mergeSort_singleton]
    rfl
  have hfrom := h.fromDecimals
  have hto := h.toDecimals
  unfold quotePaymentCurrency
  rw [if_neg h.different, hfind]
  dsimp only
  rw [hrate]
  by_cases hplaces : decimalPlaces rate ≤ 30
  · obtain ⟨n, hn, hlow, -⟩ := ExchangeRates.convertMinorAmount_ok currencyDecimals input.amountMinor
      input.paymentCurrency (r.baseCurrency == input.currency) (by omega : input.currencyDecimals ≤ 30) (by omega)
      hdecimal hplaces hpos
    simp only [bind, Except.bind, hn, pure, Except.pure]
    have hvalue : 0 < decimalValue rate := div_pos (by exact_mod_cast hpos) (by positivity)
    have hamount : 0 < exactAmount input.amountMinor input.currencyDecimals (currencyDecimals input.paymentCurrency)
        (r.baseCurrency == input.currency) (decimalValue rate) := exactAmount_pos _ h.positive hvalue
    have hexact := hamount.trans_le hlow
    exact ⟨fun _ => hplaces, fun _ => ⟨_, rfl, by exact_mod_cast hexact⟩⟩
  · simp only [bind, Except.bind, ExchangeRates.convertMinorAmount_error _ hdecimal hpos
      (.inr (.inr (by omega : 30 < decimalPlaces rate)))]
    constructor
    · rintro ⟨quote, hquote, -⟩
      cases hquote
    · exact fun h => absurd h hplaces

/-! ## Which rates are usable -/

section

variable {rate : List Char} {bps : Int}

theorem adjustable_of_schema (hrate : isExchangeRate rate = true) (hbps : adjustmentSchema bps = true)
    (hplaces : decimalPlaces rate ≤ 30) : Adjustable rate bps := by
  have hrange := of_decide_eq_true hbps
  exact ⟨hrate, by omega, by omega, hplaces⟩

theorem effectiveRate_text {r : ExchangeRate} (hraw : r.rawRate = rate) (hbps : r.adjustmentBps = bps)
    (had : Adjustable rate bps) (multiply : Bool) :
    effectiveRate r multiply = .ok (if multiply = false ∧ bps ≠ 0 then
      unitsToDecimal (decimalUnits rate * 10000 * 10 ^ 12 / (10000 + bps).toNat) (decimalPlaces rate + 12)
    else unitsToDecimal (decimalUnits rate * (10000 + bps).toNat) (decimalPlaces rate + 4)) := by
  have hstored := r.adjusted
  rw [hraw, hbps, applyRateAdjustment_text had, Except.ok.injEq] at hstored
  unfold effectiveRate
  rw [hraw, hbps]
  by_cases hinverse : multiply = false ∧ bps ≠ 0
  · rw [if_pos hinverse, if_pos (by simp [hinverse.1, hinverse.2]), (inverseAdjustedRate_text had).2]
  · rw [if_neg hinverse, if_neg (by simpa using hinverse), hstored]

theorem Usable.fewPlaces (h : Usable rate bps) : FewPlaces rate bps := by
  obtain ⟨adjusted, hadjusted⟩ := h.stored
  obtain ⟨had, -⟩ := applyRateAdjustment_ok hadjusted
  let r : ExchangeRate :=
    { id := 0, baseCurrency := 0, quoteCurrency := 1, rawRate := rate, rate := adjusted, source := 0, enabled := true
      adjustmentBps := bps, sortOrder := 0, observedAt := 0, adjusted := hadjusted }
  -- the row is quoted by in both directions
  have hforward := h.quoted r rfl rfl (fun _ => 2) ⟨1, 0, 2, 1, 0⟩ ⟨rfl, by decide, by decide, by decide, by decide⟩
  have hbackward := h.quoted r rfl rfl (fun _ => 2) ⟨1, 1, 2, 0, 0⟩ ⟨rfl, by decide, by decide, by decide, by decide⟩
  refine ⟨had.places, ?_, fun hbps => ?_⟩
  · have heffective := effectiveRate_text (r := r) rfl rfl had true
    rw [if_neg (by simp)] at heffective
    rw [← decimalPlaces_unitsToDecimal_le]
    exact (QuoteBy.ok_iff ⟨rfl, by decide, by decide, by decide, by decide⟩ heffective).mp hforward
  · have heffective := effectiveRate_text (r := r) rfl rfl had false
    rw [if_pos ⟨rfl, hbps⟩] at heffective
    rw [← decimalPlaces_unitsToDecimal_le]
    exact (QuoteBy.ok_iff ⟨rfl, by decide, by decide, by decide, by decide⟩ heffective).mp hbackward

theorem FewPlaces.usable (h : FewPlaces rate bps) (hrate : isExchangeRate rate = true)
    (hbps : adjustmentSchema bps = true) : Usable rate bps := by
  have had := adjustable_of_schema hrate hbps h.raw
  refine ⟨⟨_, applyRateAdjustment_text had⟩, fun r hraw hr currencyDecimals input hquote => ?_⟩
  refine (hquote.ok_iff (effectiveRate_text hraw hr had _)).mpr ?_
  split
  · next hinverse => exact (decimalPlaces_unitsToDecimal_le _ _ _).mpr (h.inverse hinverse.2)
  · exact (decimalPlaces_unitsToDecimal_le _ _ _).mpr h.adjusted

end

/-- An admitted rate is usable exactly if it leaves room for its adjustments. -/
theorem admittedRate_usable {text rate : List Char} {bps : Int} (hrate : rateSchema text = some rate)
    (hbps : adjustmentSchema bps = true) : Usable rate bps ↔ FewPlaces rate bps :=
  ⟨Usable.fewPlaces, fun h => h.usable (rateSchema_pattern hrate) hbps⟩

/-- A rate of 7.2 with a markup of three percent. -/
theorem admittedRate_usable_short : Usable "7.2".toList 300 ↔ FewPlaces "7.2".toList 300 :=
  admittedRate_usable (by decide : rateSchema " 7.2".toList = some "7.2".toList) (by decide)

def longRate : List Char := "1.0000000000000000000000000000001".toList

/-- It is admitted and cannot be adjusted. -/
theorem longRate_unusable : rateSchema longRate = some longRate ∧ ¬Usable longRate 0 := by
  refine ⟨by decide, fun h => ?_⟩
  obtain ⟨adjusted, hadjusted⟩ := h.stored
  have hfails : applyRateAdjustment longRate 0 = .error (.rangeError "Invalid decimals") := by decide
  cases hadjusted

end Gmshop
