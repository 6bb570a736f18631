import Mathlib

/-!
# Digit texts

Texts of decimal digits, most significant first, as `Nat.toDigits 10` writes them and
`Nat.ofDigitChars 10` reads them: what appending, padding and trimming do to the number.

    value (toDigits n) = n   value (xs ++ ys) = value xs * 10 ^ |ys| + value ys
-/

namespace Digits

open List

/-- The number a digit text stands for. -/
abbrev value (cs : List Char) : Nat := Nat.ofDigitChars 10 cs 0

def padStart (n : Nat) (cs : List Char) : List Char := List.replicate (n - cs.length) '0' ++ cs

def padEnd (n : Nat) (cs : List Char) : List Char := cs ++ List.replicate (n - cs.length) '0'

def trimZeros (cs : List Char) : List Char := cs.rdropWhile (· == '0')

theorem value_append (xs ys : List Char) : value (xs ++ ys) = value xs * 10 ^ ys.length + value ys := by
  rw [value, Nat.ofDigitChars_append, Nat.ofDigitChars_eq_ofDigitChars_zero, Nat.mul_comm]

theorem value_zeros (n : Nat) : value (replicate n '0') = 0 := by
  rw [value, Nat.ofDigitChars_replicate_zero, Nat.mul_zero]

theorem value_padStart (n : Nat) (cs : List Char) : value (padStart n cs) = value cs := by
  rw [padStart, value_append, value_zeros, Nat.zero_mul, Nat.zero_add]

theorem length_padStart (n : Nat) (cs : List Char) : (padStart n cs).length = max n cs.length := by
  rw [padStart, length_append, length_replicate]
  omega

theorem trimZeros_append (cs : List Char) : ∃ k, cs = trimZeros cs ++ replicate k '0' := by
  induction cs using reverseRecOn with
  | nil => exact ⟨0, rfl⟩
  | append_singleton cs c ih =>
    by_cases hc : c = '0'
    · obtain ⟨k, hk⟩ := ih
      refine ⟨k + 1, ?_⟩
      have htrim : trimZeros (cs ++ [c]) = trimZeros cs :=
        rdropWhile_concat_pos _ _ _ (by rw [hc]; rfl)
      rw [htrim, replicate_succ', ← append_assoc, ← hk, hc]
    · refine ⟨0, ?_⟩
      have htrim : trimZeros (cs ++ [c]) = cs ++ [c] :=
        rdropWhile_concat_neg _ _ _ (by simpa using hc)
      rw [htrim, replicate_zero, append_nil]

theorem getLast_trimZeros (cs : List Char) : ∀ c ∈ (trimZeros cs).getLast?, c ≠ '0' := by
  intro c hc
  obtain ⟨hne, rfl⟩ := mem_getLast?_eq_getLast hc
  have hlast := rdropWhile_last_not (· == '0') cs hne
  simpa [trimZeros] using hlast

def IsDigits (cs : List Char) : Prop := ∀ c ∈ cs, c.isDigit = true

instance (cs : List Char) : Decidable (IsDigits cs) := decidable_of_iff (cs.all Char.isDigit = true) List.all_eq_true

theorem isDigits_toDigits (n : Nat) : IsDigits (Nat.toDigits 10 n) :=
  fun _ hc => Nat.isDigit_of_mem_toDigits (by decide) (by decide) hc

theorem isDigits_append {xs ys : List Char} : IsDigits (xs ++ ys) ↔ IsDigits xs ∧ IsDigits ys := by
  simp [IsDigits, or_imp, forall_and]

theorem isDigits_zeros (n : Nat) : IsDigits (replicate n '0') := by
  intro c hc
  rw [(mem_replicate.mp hc).2]
  rfl

variable {cs : List Char}

theorem isDigits_padStart {n : Nat} (h : IsDigits cs) : IsDigits (padStart n cs) :=
  (isDigits_append).mpr ⟨isDigits_zeros _, h⟩

theorem isDigits_trimZeros (h : IsDigits cs) : IsDigits (trimZeros cs) :=
  fun c hc => h c (( rdropWhile_prefix _ cs).subset hc)

theorem head_toDigits {n : Nat} (hn : n ≠ 0) : ∃ c cs, Nat.toDigits 10 n = c :: cs ∧ c ≠ '0' ∧ c.isDigit = true := by
  induction n using Nat.strong_induction_on with
  | _ n ih =>
    by_cases hlt : n < 10
    · refine ⟨n.digitChar, [], Nat.toDigits_of_lt_base hlt, ?_, ?_⟩
      · intro h
        have hval := congrArg Char.toNat h
        rw [Nat.toNat_digitChar_of_lt_ten hlt] at hval
        have hzero : '0'.toNat = 48 := rfl
        omega
      · exact isDigits_toDigits n _ (by rw [Nat.toDigits_of_lt_base hlt]; exact mem_singleton_self _)
    · obtain ⟨c, cs, hcs, hc, hd⟩ := ih (n / 10) (by omega) (by omega)
      refine ⟨c, cs ++ [(n % 10).digitChar], ?_, hc, hd⟩
      rw [Nat.toDigits_of_base_le (by decide) (by omega), hcs]
      rfl

theorem value_singleton (c : Char) : value [c] = c.toNat - 48 := by
  rw [value, Nat.ofDigitChars_cons, Nat.ofDigitChars_nil, Nat.mul_zero, Nat.zero_add]
  rfl

theorem digit_range {c : Char} (hc : c.isDigit = true) : 48 ≤ c.toNat ∧ c.toNat ≤ 57 := by
  simp only [Char.isDigit, Bool.and_eq_true, decide_eq_true_eq] at hc
  exact hc

theorem value_pos (h : IsDigits cs) {c : Char} (hc : c ∈ cs) (hne : c ≠ '0') : 0 < value cs := by
  induction cs using reverseRecOn with
  | nil => cases hc
  | append_singleton cs d ih =>
    have hcs := (isDigits_append).mp h
    rw [value_append, length_singleton, value_singleton]
    rcases mem_append.mp hc with hmem | hmem
    · have hvalue := ih hcs.1 hmem
      omega
    · obtain rfl := mem_singleton.mp hmem
      have hrange := digit_range (hcs.2 c hmem)
      have hzero : c.toNat ≠ 48 := fun heq => hne (Char.ext (UInt32.toNat_inj.mp heq))
      omega

theorem value_lt (h : IsDigits cs) : value cs < 10 ^ cs.length := by
  induction cs using reverseRecOn with
  | nil => decide
  | append_singleton cs d ih =>
    have hcs := (isDigits_append).mp h
    have hlt := ih hcs.1
    have hrange := digit_range (hcs.2 d mem_cons_self)
    rw [value_append, length_singleton, value_singleton, length_append, length_singleton, pow_succ]
    omega

end Digits
