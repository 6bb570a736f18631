import Mathlib
import GmshopEdge.Lib.Json

/-!
# Natural numbers as doubles

What a double-precision number can hold of a natural number: the nearest double, ties to even, and its
shortest text, as `Number` and `String` of JavaScript give them. `⊤` is infinity.

    round n = n   and   text n = digits n   for n ≤ 2 ^ 53
-/

/-- A double that is a natural number, or infinity. -/
abbrev Double := WithTop Nat

namespace Double

open Utf16

def round (n : Nat) : Double :=
  if n ≤ 2 ^ 53 then n
  else
    let scale := 2 ^ (Nat.log2 n - 52)
    let q := n / scale
    let r := n % scale
    let nearest := (if scale < 2 * r ∨ (2 * r = scale ∧ q % 2 = 1) then q + 1 else q) * scale
    if nearest < 2 ^ 1024 then (nearest : Double) else ⊤

def succ : Double → Double
  | ⊤ => ⊤
  | (n : Nat) => round (n + 1)

/-- The multiples of `10 ^ e` around a number that round to it, the nearer one first. -/
def candidates (n e : Nat) : List Nat :=
  let low := n / 10 ^ e
  let near := if n - low * 10 ^ e ≤ (low + 1) * 10 ^ e - n then [low, low + 1] else [low + 1, low]
  near.filter fun s => decide (round (s * 10 ^ e) = n)

/-- The digits of the shortest decimal that rounds to a number, and the power of ten they stand at. -/
def shortest (n : Nat) : Nat × Nat :=
  ((List.range ((digits n).length + 1)).reverse.findSome? fun e =>
    (candidates n e).head?.map fun s => (s, e)).getD (n, 0)

/-- `Number::toString`. -/
def text : Double → Utf16
  | ⊤ => ascii "Infinity"
  | (n : Nat) =>
    if n ≤ 2 ^ 53 then digits n
    else
      let (s, e) := shortest n
      let ds := digits s
      if ds.length + e ≤ 21 then ds ++ List.replicate e (unit '0')
      else ds.take 1 ++ (if ds.length = 1 then [] else unit '.' :: ds.drop 1) ++
          ascii "e+" ++ digits (ds.length - 1 + e)

variable {n : Nat}

theorem round_exact (h : n ≤ 2 ^ 53) : round n = n := if_pos h

theorem text_exact (h : n ≤ 2 ^ 53) : text n = digits n := if_pos h

theorem succ_exact (h : n < 2 ^ 53) : succ n = (n + 1 : Nat) := round_exact h

end Double
