import GmshopEdge.Lib.Json

/-!
# Decimal numbers as doubles

The double nearest to a decimal number, ties to even, which is what JavaScript makes of a number in a JSON text.
-/

namespace Json.Number

/-- The magnitude as a numerator and a denominator. -/
def fraction (n : Number) : Nat × Nat :=
  if 0 ≤ n.exponent then (n.mantissa * 10 ^ n.exponent.toNat, 1) else (n.mantissa, 10 ^ n.exponent.natAbs)

/-- The `l` with `2 ^ l ≤ num / den < 2 ^ (l + 1)`. -/
def binaryExponent (num den : Nat) : Int :=
  let l : Int := num.log2 - den.log2
  let reached := if 0 ≤ l then decide (den * 2 ^ l.toNat ≤ num) else decide (den ≤ num * 2 ^ l.natAbs)
  if reached then l else l - 1

/-- The nearest double `q * 2 ^ e`, without an upper limit. -/
def nearest (n : Number) : Nat × Int :=
  let (num, den) := n.fraction
  let e := max (binaryExponent num den - 52) (-1074)
  let (num, den) := if 0 ≤ e then (num, den * 2 ^ e.toNat) else (num * 2 ^ e.natAbs, den)
  let q := num / den
  let r := num % den
  (if den < 2 * r ∨ (2 * r = den ∧ q % 2 = 1) then q + 1 else q, e)

def natural (n : Number) : Option Nat :=
  let (q, e) := n.nearest
  if n.negative && q != 0 then none
  else if 0 ≤ e then some (q * 2 ^ e.toNat)
  else if q % 2 ^ e.natAbs = 0 then some (q / 2 ^ e.natAbs)
  else none

-- 200.0000000000000000001
example : natural ⟨false, 2000000000000000000001, -19⟩ = some 200 := by decide

end Json.Number
