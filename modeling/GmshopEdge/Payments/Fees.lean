import GmshopEdge.Db.Schema

/-!
# Processing fees

`shop-payments/fees.ts`: what a channel keeps of a payment, and the gross amount to charge for a net one.

    least g with net ≤ g - paymentProcessingFeeAmount g  (grossUpPaymentAmount_least)
-/

namespace Gmshop

def paymentChannelFeeInvalid : DomainError :=
  ⟨"payment_channel_fee_invalid", 500, "Payment channel fee configuration is invalid"⟩

def FeeInvalid (amount feeBps fixedFee : Int) : Prop :=
  feeBps < 0 ∨ 10000 ≤ feeBps ∨ amount < 0 ∨ fixedFee < 0

instance (amount feeBps fixedFee : Int) : Decidable (FeeInvalid amount feeBps fixedFee) :=
  inferInstanceAs (Decidable (_ ∨ _))

def grossUpPaymentAmount (amount feeBps fixedFee : Int) : Except DomainError Int :=
  if FeeInvalid amount feeBps fixedFee then .error paymentChannelFeeInvalid
  else
    let numerator := (amount + fixedFee) * 10000
    let denominator := 10000 - feeBps
    .ok ((numerator + denominator - 1) / denominator)

def paymentSurchargeAmount (amount feeBps fixedFee : Int) : Except DomainError Int := do
  let gross ← grossUpPaymentAmount amount feeBps fixedFee
  return gross - amount

def paymentProcessingFeeAmount (amount feeBps fixedFee : Int) : Except DomainError Int :=
  if FeeInvalid amount feeBps fixedFee then .error paymentChannelFeeInvalid
  else
    let proportional := (amount * feeBps + if 0 < feeBps then 9999 else 0) / 10000
    .ok (proportional + fixedFee)

/-! ## What a gross amount leaves -/

section

variable {net gross feeBps fixedFee : Int}

theorem paymentProcessingFeeAmount_ok {fee : Int} (h : paymentProcessingFeeAmount gross feeBps fixedFee = .ok fee) :
    ¬FeeInvalid gross feeBps fixedFee ∧
      fee = (gross * feeBps + if 0 < feeBps then 9999 else 0) / 10000 + fixedFee := by
  unfold paymentProcessingFeeAmount at h
  split at h
  · cases h
  · next hvalid => exact ⟨hvalid, (Except.ok.inj h).symm⟩

/-- A payment leaves the net amount exactly where its part after the rate covers the net amount and the fixed fee;
the rounding of the fee plays no role. -/
theorem net_le_iff (hbps : 0 ≤ feeBps) :
    net ≤ gross - ((gross * feeBps + if 0 < feeBps then 9999 else 0) / 10000 + fixedFee) ↔
      (net + fixedFee) * 10000 ≤ gross * (10000 - feeBps) := by
  rw [Int.mul_sub]
  by_cases hpos : 0 < feeBps
  · rw [if_pos hpos]
    -- the product stays as it is
    generalize gross * feeBps = kept
    omega
  · obtain rfl : feeBps = 0 := by omega
    omega

theorem ceil_le_iff {n d g : Int} (hd : 0 < d) : (n + d - 1) / d ≤ g ↔ n ≤ g * d := by
  rw [← Int.lt_add_one_iff, Int.ediv_lt_iff_lt_mul hd, Int.add_mul, Int.one_mul]
  omega

end

structure LeastGross (net feeBps fixedFee gross : Int) : Prop where
  leaves : ∃ fee, paymentProcessingFeeAmount gross feeBps fixedFee = .ok fee ∧ net ≤ gross - fee
  least : ∀ g fee, paymentProcessingFeeAmount g feeBps fixedFee = .ok fee → net ≤ g - fee → gross ≤ g

theorem grossUpPaymentAmount_least {net feeBps fixedFee : Int} (hnet : 0 ≤ net) (hfixed : 0 ≤ fixedFee)
    (hlow : 0 ≤ feeBps) (hhigh : feeBps < 10000) :
    ∃ gross, grossUpPaymentAmount net feeBps fixedFee = .ok gross ∧ LeastGross net feeBps fixedFee gross := by
  have hvalid : ∀ {amount : Int}, 0 ≤ amount → ¬FeeInvalid amount feeBps fixedFee := by
    intro amount hamount
    unfold FeeInvalid
    omega
  have hden : 0 < 10000 - feeBps := by omega
  refine ⟨_, if_neg (hvalid hnet), ⟨_, if_neg (hvalid ?_), ?_⟩, ?_⟩
  · exact Int.ediv_nonneg (by omega) hden.le
  · rw [net_le_iff hlow]
    exact (ceil_le_iff hden).mp le_rfl
  · intro g fee hfee hleaves
    obtain ⟨-, rfl⟩ := paymentProcessingFeeAmount_ok hfee
    rw [net_le_iff hlow] at hleaves
    exact (ceil_le_iff hden).mpr hleaves

/-- A net amount of 100 at a rate of three percent and a fixed fee of 30. -/
theorem grossUpPaymentAmount_least_hundred :
    ∃ gross, grossUpPaymentAmount 100 300 30 = .ok gross ∧ LeastGross 100 300 30 gross :=
  grossUpPaymentAmount_least (by decide) (by decide) (by decide) (by decide)

example : grossUpPaymentAmount 100 300 30 = .ok 135 := by decide

end Gmshop
