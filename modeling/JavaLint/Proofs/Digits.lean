import JavaLint.Numeral.Integer
import Mathlib.Data.Nat.Digits.Defs
import Mathlib.Tactic.IntervalCases

/-! The digits of a number in decimal: which characters they are, how they begin, and that the
number is read back from them. -/
namespace JavaLint.Numeral

/-- A number other than zero does not begin with a zero. -/
theorem toDigits_head (n : Nat) :
    ∃ k < 10, ∃ more, Nat.toDigits 10 n = k.digitChar :: more ∧ (k = 0 → n = 0) := by
  induction n using Nat.strong_induction_on with
  | h n ih =>
    by_cases hn : n < 10
    · exact ⟨n, hn, [], Nat.toDigits_of_lt_base hn, id⟩
    · obtain ⟨k, hk, more, hmore, hzero⟩ := ih (n / 10) (by omega)
      refine ⟨k, hk, more ++ [(n % 10).digitChar], ?_, by omega⟩
      rw [Nat.toDigits_of_base_le (by decide) (by omega), hmore, List.cons_append]

theorem digitValue?_digitChar {k : Nat} (h : k < 10) :
    Text.digitValue? k.digitChar = some k := by
  interval_cases k <;> decide

/-- Behind the digits of a number, reading goes on with the number as the value so far. -/
theorem readDigits_toDigits (n : Nat) (rest : List Char) :
    readDigits 0 false (Nat.toDigits 10 n ++ rest) = readDigits n true rest := by
  induction n using Nat.strong_induction_on generalizing rest with
  | h n ih =>
    by_cases hn : n < 10
    · rw [Nat.toDigits_of_lt_base hn, List.singleton_append, readDigits, digitValue?_digitChar hn]
      simp
    · rw [Nat.toDigits_of_base_le (by decide) (by omega), List.append_assoc, List.singleton_append,
        ih (n / 10) (by omega), readDigits, digitValue?_digitChar (by omega)]
      simp only
      rw [show n / 10 * 10 + n % 10 = n by omega]

theorem readDigits_eq_some (n : Nat) : readDigits 0 false (Nat.toDigits 10 n) = some n := by
  rw [← List.append_nil (Nat.toDigits 10 n), readDigits_toDigits]
  rfl

theorem toDigits_injective : Function.Injective (Nat.toDigits 10) := by
  intro a b h
  have hread := readDigits_eq_some b
  rw [← h, readDigits_eq_some a] at hread
  exact Option.some.inj hread

end JavaLint.Numeral
