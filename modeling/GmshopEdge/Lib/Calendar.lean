import Mathlib

/-!
# Months of the civil calendar

Days are counted from 1 January 1970, months from that January. `monthStart k` is the first day of month `k`,
`monthOf d` the month of day `d`; they are adjoint:

    monthStart k ≤ d  ↔  k ≤ monthOf d  (monthStart_le)
-/

namespace Calendar

def isLeap (year : Nat) : Bool := year % 4 == 0 && (year % 100 != 0 || year % 400 == 0)

/-- The days of a month of a year; January is 0. -/
def monthLength (year : Nat) : Nat → Nat
  | 1 => if isLeap year then 29 else 28
  | 3 | 5 | 8 | 10 => 30
  | _ => 31

def yearOf (month : Nat) : Nat := 1970 + month / 12

def monthStart : Nat → Nat
  | 0 => 0
  | k + 1 => monthStart k + monthLength (yearOf k) (k % 12)

/-- No month is shorter than 28 days, which bounds the search. -/
def monthOf (day : Nat) : Nat := Nat.findGreatest (fun k => monthStart k ≤ day) (day / 28)

theorem monthLength_ge (year month : Nat) : 28 ≤ monthLength year month := by
  unfold monthLength
  split
  · split <;> decide
  · decide
  · decide
  · decide
  · decide
  · decide

theorem monthStart_lt (k : Nat) : monthStart k < monthStart (k + 1) := by
  have := monthLength_ge (yearOf k) (k % 12)
  show _ < monthStart k + _
  omega

theorem monthStart_mono : Monotone monthStart := (strictMono_nat_of_lt_succ monthStart_lt).monotone

theorem le_monthStart (k : Nat) : 28 * k ≤ monthStart k := by
  induction k with
  | zero => exact Nat.zero_le _
  | succ k ih =>
    have := monthLength_ge (yearOf k) (k % 12)
    show _ ≤ monthStart k + _
    omega

theorem monthStart_le {k day : Nat} : monthStart k ≤ day ↔ k ≤ monthOf day := by
  constructor
  · intro h
    have hk := le_monthStart k
    apply Nat.le_findGreatest
    · omega
    · exact h
  · intro h
    have hspec : monthStart (monthOf day) ≤ day :=
      Nat.findGreatest_spec (P := fun k => monthStart k ≤ day) (m := 0) (Nat.zero_le _) (Nat.zero_le _)
    exact (monthStart_mono h).trans hspec

theorem monthOf_mono : Monotone monthOf := fun _ _ h => (monthStart_le).mp (((monthStart_le).mpr le_rfl).trans h)

example : monthOf 59 = 2 ∧ monthOf 789 = 25 ∧ monthStart 26 = 790 := by decide

end Calendar
