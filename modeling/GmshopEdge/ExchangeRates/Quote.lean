import GmshopEdge.Db.Schema
import GmshopEdge.ExchangeRates.Money

/-!
# Currency quotes

`exchange-rates/rates.ts` and `quotePaymentCurrency` (`exchange-rates/server/quote.ts`): an order
amount is converted at the stored rate of its currency pair, or divided by the rate of the reverse
pair. A markup of a divided rate is taken off the divisor, which is rounded down.

How many decimals a currency has (`Intl.NumberFormat`) is an argument.
-/

namespace Gmshop

open List Digits Bool

/-! ## Rates -/

/-- `exchangeRatePattern`. -/
def isExchangeRate (value : List Char) : Bool :=
  match splitPoint value with
  | (['0'], some fraction) => fraction.all Char.isDigit && fraction.any (· != '0')
  | (c :: cs, fraction) => c != '0' && (c :: cs).all Char.isDigit &&
      fraction.all fun fraction => !fraction.isEmpty && fraction.all Char.isDigit
  | _ => false

def checkAdjustment (rate : List Char) (adjustmentBps : Int) : Except NumberError Unit :=
  if isExchangeRate rate = false then .error (.typeError "Invalid exchange rate")
  else if adjustmentBps ≤ -10000 ∨ 100000 < adjustmentBps then
    .error (.rangeError "Exchange-rate adjustment is outside the supported range")
  else .ok ()

def inverseAdjustedRate (rawRate : List Char) (adjustmentBps : Int) : Except NumberError (List Char) := do
  checkAdjustment rawRate adjustmentBps
  let decimals := decimalPlaces rawRate
  let rawUnits ← decimalToUnits rawRate decimals
  let units := rawUnits * 10000 * 10 ^ 12 / (10000 + adjustmentBps).toNat
  if units = 0 then throw (.rangeError "Exchange rate is too small")
  return unitsToDecimal units (decimals + 12)

def applyRateAdjustment (rate : List Char) (adjustmentBps : Int) : Except NumberError (List Char) := do
  checkAdjustment rate adjustmentBps
  let decimals := decimalPlaces rate
  let units ← decimalToUnits rate decimals
  return unitsToDecimal (units * (10000 + adjustmentBps).toNat) (decimals + 4)

def ExchangeRates.convertMinorAmount (currencyDecimals : Nat → Nat) (amountMinor fromDecimals toCurrency : Nat)
    (rate : List Char) (multiply : Bool) : Except NumberError Nat := do
  let outputDecimals := currencyDecimals toCurrency
  let amount := unitsToDecimal amountMinor fromDecimals
  let rateDecimals := decimalPlaces rate
  let converted ← if multiply then convertByRate amount fromDecimals rate rateDecimals outputDecimals
    else divideByRate amount fromDecimals rate rateDecimals outputDecimals
  decimalToUnits converted outputDecimals

/-- `exchange_rates`. Both writers, the admin form and the synchronisation, store a raw rate with
what `applyRateAdjustment` makes of it. -/
structure ExchangeRate where
  id : Id
  baseCurrency : Nat
  quoteCurrency : Nat
  rawRate : List Char
  rate : List Char
  source : Nat
  enabled : Bool
  adjustmentBps : Int
  sortOrder : Int
  observedAt : Time
  adjusted : applyRateAdjustment rawRate adjustmentBps = .ok rate

/-! ## The quote -/

inductive RateSource where
  | parity
  | stored (source : Nat)

structure PaymentCurrencyQuote where
  amountMinor : Nat
  currency : Nat
  currencyDecimals : Nat
  rateId : Option Id
  rate : List Char
  rateDirection : RateDirection
  rateSource : RateSource
  rateAdjustmentBps : Int
  rateObservedAt : Time

structure QuoteInput where
  amountMinor : Nat
  currency : Nat
  currencyDecimals : Nat
  paymentCurrency : Nat
  now : Time

inductive QuoteError where
  | domain (e : DomainError)
  | number (e : NumberError)

/-- `ORDER BY CASE WHEN base_currency = ? THEN 0 ELSE 1 END, sort_order, observed_at DESC, id`. -/
def ExchangeRate.before (currency : Nat) (a b : ExchangeRate) : Bool :=
  let rank (r : ExchangeRate) : Nat := if r.baseCurrency = currency then 0 else 1
  decide (rank a < rank b ∨ rank a = rank b ∧ (a.sortOrder < b.sortOrder ∨ a.sortOrder = b.sortOrder ∧
    (b.observedAt < a.observedAt ∨ a.observedAt = b.observedAt ∧ a.id ≤ b.id)))

def ExchangeRate.isFor (currency paymentCurrency : Nat) (r : ExchangeRate) : Bool :=
  ((r.baseCurrency == currency && r.quoteCurrency == paymentCurrency) ||
    (r.baseCurrency == paymentCurrency && r.quoteCurrency == currency)) && r.enabled

def findExchangeRate (rates : List ExchangeRate) (currency paymentCurrency : Nat) : Option ExchangeRate :=
  ((rates.filter (·.isFor currency paymentCurrency)).mergeSort (ExchangeRate.before currency)).head?

def exchangeRateUnavailable : DomainError :=
  ⟨"exchange_rate_unavailable", 409, "The selected payment currency is unavailable"⟩

/-- The rate that is applied: multiplying uses the adjusted rate, dividing the inversely adjusted raw
rate. -/
def effectiveRate (r : ExchangeRate) (multiply : Bool) : Except NumberError (List Char) :=
  if !multiply && r.adjustmentBps != 0 then inverseAdjustedRate r.rawRate r.adjustmentBps else .ok r.rate

def quotePaymentCurrency (rates : List ExchangeRate) (currencyDecimals : Nat → Nat)
    (input : QuoteInput) : Except QuoteError PaymentCurrencyQuote :=
  if input.currency = input.paymentCurrency then
    .ok { amountMinor := input.amountMinor, currency := input.currency
          currencyDecimals := input.currencyDecimals, rateId := none, rate := ['1']
          rateDirection := .parity, rateSource := .parity, rateAdjustmentBps := 0
          rateObservedAt := input.now }
  else match findExchangeRate rates input.currency input.paymentCurrency with
  | none => .error (.domain exchangeRateUnavailable)
  | some r =>
    let multiply := r.baseCurrency == input.currency
    match (do
      let rate ← effectiveRate r multiply
      let amount ← ExchangeRates.convertMinorAmount currencyDecimals input.amountMinor input.currencyDecimals
        input.paymentCurrency rate multiply
      return (rate, amount)) with
    | .error e => .error (.number e)
    | .ok (rate, amount) =>
      .ok { amountMinor := amount, currency := input.paymentCurrency
            currencyDecimals := currencyDecimals input.paymentCurrency, rateId := some r.id, rate := rate
            rateDirection := if multiply then .multiply else .divide
            rateSource := .stored r.source, rateAdjustmentBps := r.adjustmentBps
            rateObservedAt := r.observedAt }

/-! ## Rates as numbers -/

variable {rate value : List Char} {bps : Int} {currency fromDecimals paymentCurrency : Nat}
  {rates : List ExchangeRate}

theorem isExchangeRate_decimal (h : isExchangeRate value = true) :
    isDecimal value = true ∧ 0 < decimalUnits value := by
  unfold isExchangeRate at h
  unfold isDecimal decimalUnits
  split at h
  · next fraction hsplit =>
    rw [Bool.and_eq_true] at h
    obtain ⟨c, hc, hne⟩ := any_eq_true.mp h.2
    have hnonempty : fraction.isEmpty = false := isEmpty_eq_false_iff.mpr (ne_nil_of_mem hc)
    rw [hsplit]
    refine ⟨by simp [isWhole, hnonempty, h.1], value_pos (isDigits_append.mpr
      ⟨show IsDigits ['0'] by decide, ?_⟩) (mem_append_right _ hc) (by simpa using hne)⟩
    exact all_eq_true.mp h.1
  · next c cs fraction _ hsplit =>
    simp only [Bool.and_eq_true, bne_iff_ne] at h
    obtain ⟨⟨hc, hwhole⟩, hfraction⟩ := h
    have hdigits : IsDigits (fraction.getD []) := by
      cases fraction with
      | none => intro x hx; cases hx
      | some f =>
        simp only [Option.all_some, Bool.and_eq_true] at hfraction
        exact all_eq_true.mp hfraction.2
    rw [hsplit]
    have hhead : isWhole (c :: cs) = true := by
      simp only [isWhole, hwhole]
      simp [hc]
    refine ⟨by simp only [hhead, hfraction, Bool.and_true], ?_⟩
    exact value_pos (isDigits_append.mpr ⟨all_eq_true.mp hwhole, hdigits⟩)
      (mem_append_left _ mem_cons_self) hc
  · cases h

structure Adjustable (rate : List Char) (adjustmentBps : Int) : Prop where
  pattern : isExchangeRate rate = true
  lower : -10000 < adjustmentBps
  upper : adjustmentBps ≤ 100000
  places : decimalPlaces rate ≤ 30

section

variable (h : Adjustable rate bps)
include h

theorem Adjustable.units : decimalToUnits rate (decimalPlaces rate) .reject = .ok (decimalUnits rate) := by
  have hunits := decimalToUnits_ok (isExchangeRate_decimal h.pattern).1 h.places (Nat.le_refl _) .reject
  rwa [Nat.sub_self, Nat.pow_zero, Nat.mul_one] at hunits

theorem Adjustable.check : checkAdjustment rate bps = .ok () := by
  have hlower := h.lower
  have hupper := h.upper
  rw [checkAdjustment, if_neg (by simp [h.pattern]), if_neg (by omega)]

theorem Adjustable.factor : 0 < (10000 + bps).toNat ∧ (10000 + bps).toNat ≤ 110000 ∧
      ((10000 + bps).toNat : ℚ) = 10000 + bps := by
  have hlower := h.lower
  have hupper := h.upper
  have hnat : ((10000 + bps).toNat : Int) = 10000 + bps := Int.toNat_of_nonneg (by omega)
  refine ⟨by omega, by omega, ?_⟩
  have hcast := congrArg (Int.cast : Int → ℚ) hnat
  push_cast at hcast
  exact hcast

end

theorem applyRateAdjustment_ok {adjusted : List Char} (h : applyRateAdjustment rate bps = .ok adjusted) :
    Adjustable rate bps ∧ isDecimal adjusted = true ∧ 0 < decimalUnits adjusted ∧
      decimalValue adjusted = decimalValue rate * (10000 + bps) / 10000 := by
  unfold applyRateAdjustment checkAdjustment at h
  by_cases hpattern : isExchangeRate rate = false
  · simp [hpattern, bind, Except.bind] at h
  rw [if_neg hpattern] at h
  by_cases hrange : bps ≤ -10000 ∨ 100000 < bps
  · simp [hrange, bind, Except.bind] at h
  rw [if_neg hrange] at h
  have hdecimal := isExchangeRate_decimal (of_not_eq_false hpattern)
  have hplaces : decimalPlaces rate ≤ 30 := by
    by_contra hlong
    have hlt : 30 < decimalPlaces rate := by omega
    simp [decimalToUnits, hlt, bind, Except.bind] at h
  have had : Adjustable rate bps :=
    ⟨of_not_eq_false hpattern, by omega, by omega, hplaces⟩
  have hfactor := had.factor
  simp only [bind, Except.bind, had.units, pure, Except.pure, Except.ok.injEq] at h
  obtain ⟨htext, -, hunits⟩ := unitsToDecimal_spec (decimalUnits rate * (10000 + bps).toNat) (decimalPlaces rate + 4)
  have hvalue := decimalValue_unitsToDecimal (decimalUnits rate * (10000 + bps).toNat) (decimalPlaces rate + 4)
  rw [h] at htext hunits hvalue
  refine ⟨had, htext, ?_, ?_⟩
  · have hpos := Nat.mul_pos hdecimal.2 hfactor.1
    rw [← hunits] at hpos
    exact Nat.pos_of_mul_pos_right hpos
  · rw [hvalue, decimalValue, pow_add]
    push_cast
    rw [hfactor.2.2]
    field_simp
    ring

section

variable (h : Adjustable rate bps)
include h

theorem applyRateAdjustment_text : applyRateAdjustment rate bps =
      .ok (unitsToDecimal (decimalUnits rate * (10000 + bps).toNat) (decimalPlaces rate + 4)) := by
  unfold applyRateAdjustment
  simp only [bind, Except.bind, h.check, h.units, pure, Except.pure]

theorem inverseAdjustedRate_text :
    0 < decimalUnits rate * 10000 * 10 ^ 12 / (10000 + bps).toNat ∧ inverseAdjustedRate rate bps =
        .ok (unitsToDecimal (decimalUnits rate * 10000 * 10 ^ 12 / (10000 + bps).toNat) (decimalPlaces rate + 12)) := by
  have hfactor := h.factor
  have hrate := (isExchangeRate_decimal h.pattern).2
  have hpos : 0 < decimalUnits rate * 10000 * 10 ^ 12 / (10000 + bps).toNat := by
    refine Nat.div_pos (Nat.le_trans hfactor.2.1 ?_) hfactor.1
    omega
  refine ⟨hpos, ?_⟩
  unfold inverseAdjustedRate
  simp only [bind, Except.bind, h.check, h.units, pure, Except.pure]
  rw [if_neg hpos.ne']

theorem inverseAdjustedRate_ok :
    ∃ inverse, inverseAdjustedRate rate bps = .ok inverse ∧ isDecimal inverse = true ∧ 0 < decimalUnits inverse ∧
      decimalValue inverse ≤ decimalValue rate * 10000 / (10000 + bps) ∧
      decimalValue rate * 10000 / (10000 + bps) < decimalValue inverse + 1 / 10 ^ (decimalPlaces rate + 12) := by
  have hfactor := h.factor
  obtain ⟨hpos, hrun⟩ := inverseAdjustedRate_text h
  obtain ⟨n, hn⟩ : ∃ n, n = decimalUnits rate * 10000 * 10 ^ 12 / (10000 + bps).toNat := ⟨_, rfl⟩
  rw [← hn] at hpos hrun
  obtain ⟨htext, -, hunits⟩ := unitsToDecimal_spec n (decimalPlaces rate + 12)
  refine ⟨_, hrun, htext, ?_, ?_⟩
  · rw [← hunits] at hpos
    exact Nat.pos_of_mul_pos_right hpos
  · rw [decimalValue_unitsToDecimal]
    -- the quotient of the floor, over the scale
    have hbps : (0 : ℚ) < 10000 + bps := by
      rw [← hfactor.2.2]
      exact_mod_cast hfactor.1
    have hexact : decimalValue rate * 10000 / (10000 + bps) =
        (decimalUnits rate * 10000 * 10 ^ 12 / (10000 + bps) : ℚ) / 10 ^ (decimalPlaces rate + 12) := by
      rw [decimalValue, pow_add]
      field_simp
    have hscale : (0 : ℚ) < 10 ^ (decimalPlaces rate + 12) := by positivity
    have hfloor : n * (10000 + bps).toNat ≤ decimalUnits rate * 10000 * 10 ^ 12 ∧
        decimalUnits rate * 10000 * 10 ^ 12 < (n + 1) * (10000 + bps).toNat := by
      have hdiv := Nat.div_add_mod (decimalUnits rate * 10000 * 10 ^ 12) (10000 + bps).toNat
      have hmod := Nat.mod_lt (decimalUnits rate * 10000 * 10 ^ 12) hfactor.1
      rw [← hn, Nat.mul_comm] at hdiv
      rw [Nat.add_mul, Nat.one_mul]
      omega
    have hlow : (n : ℚ) * (10000 + bps) ≤ decimalUnits rate * 10000 * 10 ^ 12 := by
      rw [← hfactor.2.2]
      exact_mod_cast hfloor.1
    have hhigh : (decimalUnits rate * 10000 * 10 ^ 12 : ℚ) < (n + 1) * (10000 + bps) := by
      rw [← hfactor.2.2]
      exact_mod_cast hfloor.2
    rw [hexact]
    constructor
    · exact div_le_div_of_nonneg_right ((le_div_iff₀ hbps).mpr hlow) hscale.le
    · rw [← add_div]
      exact div_lt_div_of_pos_right ((div_lt_iff₀ hbps).mpr hhigh) hscale

end

/-- A markup of three percent on a rate of 7.2. -/
example : inverseAdjustedRate "7.2".toList 300 = .ok "6.9902912621359".toList := by decide_cbv

/-! ## The converted amount -/

/-- An amount times a rate, or divided by the rate of the reverse pair. -/
def exactAmount (amount fromDecimals toDecimals : Nat) (multiply : Bool) (rate : ℚ) : ℚ :=
  convertedAmount amount fromDecimals toDecimals (if multiply then rate else 1 / rate)

theorem ExchangeRates.convertMinorAmount_ok (currencyDecimals : Nat → Nat) (amount toCurrency : Nat)
    (multiply : Bool) (hfrom : fromDecimals ≤ 30) (hto : currencyDecimals toCurrency ≤ 30)
    (hrate : isDecimal rate = true) (hplaces : decimalPlaces rate ≤ 30) (hpos : 0 < decimalUnits rate) :
    ∃ n : Nat, ExchangeRates.convertMinorAmount currencyDecimals amount fromDecimals toCurrency rate multiply = .ok n ∧
      exactAmount amount fromDecimals (currencyDecimals toCurrency) multiply (decimalValue rate) ≤ n ∧
      (n : ℚ) < exactAmount amount fromDecimals (currencyDecimals toCurrency) multiply (decimalValue rate) + 1 := by
  unfold ExchangeRates.convertMinorAmount exactAmount
  cases multiply with
  | true =>
    obtain ⟨n, hn, hbounds⟩ := convertByRate_ok amount (currencyDecimals toCurrency) hfrom hrate hplaces
    refine ⟨n, ?_, hbounds⟩
    simp only [if_true, hn, bind, Except.bind]
    exact decimalToUnits_unitsToDecimal _ hto .reject
  | false =>
    obtain ⟨n, hn, hbounds⟩ := divideByRate_ok amount (currencyDecimals toCurrency) hfrom hrate hplaces hpos
    refine ⟨n, ?_, hbounds⟩
    simp only [false_eq_true, if_false, hn, bind, Except.bind]
    exact decimalToUnits_unitsToDecimal _ hto .reject

theorem decimalToUnits_places {decimals : Nat} (h : 30 < decimals) (rounding : DecimalRounding) :
    decimalToUnits value decimals rounding = .error (.rangeError "Invalid decimals") := if_pos h

theorem ExchangeRates.convertMinorAmount_error {currencyDecimals : Nat → Nat} {amount toCurrency : Nat}
    (multiply : Bool) (hrate : isDecimal rate = true) (hpos : 0 < decimalUnits rate)
    (h : 30 < fromDecimals ∨ 30 < currencyDecimals toCurrency ∨ 30 < decimalPlaces rate) :
    ExchangeRates.convertMinorAmount currencyDecimals amount fromDecimals toCurrency rate multiply =
      .error (.rangeError "Invalid decimals") := by
  unfold ExchangeRates.convertMinorAmount
  by_cases hfrom : 30 < fromDecimals
  · cases multiply <;>
      simp [convertByRate, divideByRate, decimalToUnits_places hfrom, bind, Except.bind]
  have hamount := decimalToUnits_unitsToDecimal amount (by omega : fromDecimals ≤ 30) .reject
  by_cases hplaces : 30 < decimalPlaces rate
  · cases multiply <;>
      simp [convertByRate, divideByRate, hamount, decimalToUnits_places hplaces, bind, Except.bind]
  have hto : 30 < currencyDecimals toCurrency := by omega
  cases multiply with
  | true =>
    obtain ⟨n, hn, -⟩ := convertByRate_ok amount
      (currencyDecimals toCurrency) (by omega : fromDecimals ≤ 30) hrate (by omega)
    simp only [if_true, hn, bind, Except.bind]
    exact decimalToUnits_places hto .reject
  | false =>
    obtain ⟨n, hn, -⟩ := divideByRate_ok amount
      (currencyDecimals toCurrency) (by omega : fromDecimals ≤ 30) hrate (by omega) hpos
    simp only [false_eq_true, if_false, hn, bind, Except.bind]
    exact decimalToUnits_places hto .reject

/-- The rate the shop means: the raw rate with its markup, which a division takes off the divisor. -/
def intendedRate (r : ExchangeRate) (multiply : Bool) : ℚ :=
  if multiply then decimalValue r.rawRate * (10000 + r.adjustmentBps) / 10000
  else decimalValue r.rawRate * 10000 / (10000 + r.adjustmentBps)

/-- The rate a quote applies is the intended one when it multiplies or nothing is adjusted, and falls
short of it by less than the last of twelve more places when it divides. -/
theorem effectiveRate_ok (r : ExchangeRate) (multiply : Bool) :
    ∃ rate, effectiveRate r multiply = .ok rate ∧ isDecimal rate = true ∧ 0 < decimalUnits rate ∧
      decimalValue rate ≤ intendedRate r multiply ∧
      intendedRate r multiply < decimalValue rate + 1 / 10 ^ (decimalPlaces r.rawRate + 12) ∧
      (multiply = true ∨ r.adjustmentBps = 0 → decimalValue rate = intendedRate r multiply) := by
  obtain ⟨had, htext, hpos, hvalue⟩ := applyRateAdjustment_ok r.adjusted
  have hgap : (0 : ℚ) < 1 / 10 ^ (decimalPlaces r.rawRate + 12) := by positivity
  by_cases hstored : multiply = true ∨ r.adjustmentBps = 0
  · have hexact : decimalValue r.rate = intendedRate r multiply := by
      unfold intendedRate
      rcases hstored with rfl | hbps
      · exact hvalue
      · rw [hvalue, hbps]
        cases multiply <;> simp
    refine ⟨r.rate, ?_, htext, hpos, hexact.le, ?_, fun _ => hexact⟩
    · rcases hstored with rfl | hbps
      · rfl
      · simp [effectiveRate, hbps]
    · rw [hexact]
      exact lt_add_of_pos_right _ hgap
  · push Not at hstored
    obtain ⟨hmultiply, hbps⟩ := hstored
    obtain rfl : multiply = false := eq_false_of_not_eq_true hmultiply
    obtain ⟨inverse, hinverse, hdecimal, hpositive, hle, hlt⟩ := inverseAdjustedRate_ok had
    refine ⟨inverse, ?_, hdecimal, hpositive, hle, hlt, ?_⟩
    · simp [effectiveRate, hbps, hinverse]
    · rintro (h | h)
      · cases h
      · exact absurd h hbps

theorem exactAmount_mono (amount fromDecimals toDecimals : Nat) {multiply : Bool} {a b : ℚ} (ha : 0 < a)
    (hab : a ≤ b) (heq : multiply = true → a = b) :
    exactAmount amount fromDecimals toDecimals multiply b ≤
      exactAmount amount fromDecimals toDecimals multiply a := by
  unfold exactAmount convertedAmount
  cases multiply with
  | true => rw [heq rfl]
  | false =>
    have hinv : 1 / b ≤ 1 / a := one_div_le_one_div_of_le ha hab
    simp only [false_eq_true, if_false]
    gcongr

/-! ## No undercharge -/

theorem findExchangeRate_some {r : ExchangeRate} (h : findExchangeRate rates currency paymentCurrency = some r) :
    r ∈ rates ∧ r.isFor currency paymentCurrency = true := by
  have hmem := mem_of_mem_head? (Option.mem_def.mpr h)
  rw [mem_mergeSort, mem_filter] at hmem
  exact hmem

theorem findExchangeRate_none (h : findExchangeRate rates currency paymentCurrency = none) :
    ∀ r ∈ rates, r.isFor currency paymentCurrency = false := by
  intro r hr
  by_contra hfor
  rw [not_eq_false] at hfor
  have hmem : r ∈ (rates.filter (·.isFor currency paymentCurrency)).mergeSort
      (ExchangeRate.before currency) := mem_mergeSort.mpr (mem_filter.mpr ⟨hr, hfor⟩)
  rw [head?_eq_none_iff.mp h] at hmem
  cases hmem

/-- What a quote by the rate `r` charges: at least the exact amount at the intended rate, and less than a
minor unit over the exact amount at the rate it shows. -/
structure QuoteSound (input : QuoteInput) (r : ExchangeRate) (quote : PaymentCurrencyQuote) : Prop where
  enough : exactAmount input.amountMinor input.currencyDecimals quote.currencyDecimals
    (r.baseCurrency == input.currency) (intendedRate r (r.baseCurrency == input.currency)) ≤
      quote.amountMinor
  rounded : (quote.amountMinor : ℚ) <
    exactAmount input.amountMinor input.currencyDecimals quote.currencyDecimals
      (r.baseCurrency == input.currency) (decimalValue quote.rate) + 1
  lower : decimalValue quote.rate ≤ intendedRate r (r.baseCurrency == input.currency)
  close : intendedRate r (r.baseCurrency == input.currency) <
    decimalValue quote.rate + 1 / 10 ^ (decimalPlaces r.rawRate + 12)
  exact : (r.baseCurrency == input.currency) = true ∨ r.adjustmentBps = 0 →
    decimalValue quote.rate = intendedRate r (r.baseCurrency == input.currency)

/-- The answers of `quotePaymentCurrency`. -/
inductive Quoted (rates : List ExchangeRate) (currencyDecimals : Nat → Nat) (input : QuoteInput) :
    Except QuoteError PaymentCurrencyQuote → Prop
  | parity {quote : PaymentCurrencyQuote} (same : input.currency = input.paymentCurrency)
      (amount : quote.amountMinor = input.amountMinor) : Quoted rates currencyDecimals input (.ok quote)
  | converted {quote : PaymentCurrencyQuote} (r : ExchangeRate) (stored : r ∈ rates)
      (pair : r.isFor input.currency input.paymentCurrency = true)
      (decimals : quote.currencyDecimals = currencyDecimals input.paymentCurrency)
      (sound : QuoteSound input r quote) : Quoted rates currencyDecimals input (.ok quote)
  | unavailable (none : ∀ r ∈ rates, r.isFor input.currency input.paymentCurrency = false) :
      Quoted rates currencyDecimals input (.error (.domain exchangeRateUnavailable))
  | places (r : ExchangeRate) (rate : List Char) (stored : r ∈ rates)
      (applied : effectiveRate r (r.baseCurrency == input.currency) = .ok rate)
      (long : 30 < input.currencyDecimals ∨ 30 < currencyDecimals input.paymentCurrency ∨
        30 < decimalPlaces rate) :
      Quoted rates currencyDecimals input (.error (.number (.rangeError "Invalid decimals")))

/-- A quote never undercharges, and charges less than a minor unit more than the exact amount where the
adjusted rate is exact. -/
theorem quotePaymentCurrency_never_undercharges (rates : List ExchangeRate)
    (currencyDecimals : Nat → Nat) (input : QuoteInput) :
    Quoted rates currencyDecimals input (quotePaymentCurrency rates currencyDecimals input) := by
  unfold quotePaymentCurrency
  by_cases hsame : input.currency = input.paymentCurrency
  · rw [if_pos hsame]
    exact .parity hsame rfl
  rw [if_neg hsame]
  cases hfind : findExchangeRate rates input.currency input.paymentCurrency with
  | none => exact .unavailable (findExchangeRate_none hfind)
  | some r =>
    obtain ⟨hstored, hpair⟩ := findExchangeRate_some hfind
    obtain ⟨rate, hrate, hdecimal, hpos, hlower, hclose, hexact⟩ :=
      effectiveRate_ok r (r.baseCurrency == input.currency)
    dsimp only
    rw [hrate]
    by_cases hlong : 30 < input.currencyDecimals ∨ 30 < currencyDecimals input.paymentCurrency ∨
        30 < decimalPlaces rate
    · simp only [bind, Except.bind, ExchangeRates.convertMinorAmount_error _ hdecimal hpos hlong]
      exact .places r rate hstored hrate hlong
    · obtain ⟨n, hn, hlow, hhigh⟩ := ExchangeRates.convertMinorAmount_ok currencyDecimals input.amountMinor
        input.paymentCurrency (r.baseCurrency == input.currency)
        (by omega : input.currencyDecimals ≤ 30) (by omega) hdecimal (by omega) hpos
      simp only [bind, Except.bind, hn, pure, Except.pure]
      -- a smaller divisor charges more
      have hrateq : 0 < decimalValue rate := div_pos (by exact_mod_cast hpos) (by positivity)
      have hmono := exactAmount_mono input.amountMinor input.currencyDecimals
        (currencyDecimals input.paymentCurrency) hrateq hlower fun h => hexact (.inl h)
      exact .converted r hstored hpair rfl ⟨hmono.trans hlow, hhigh, hlower, hclose, hexact⟩

end Gmshop
