import Postmortem.Number.Digits

/-!
# Digits as they are usually written

The digits of a number are those of its decimal representation, so none of them is a line feed.
-/

namespace Postmortem.Number

/-- The character of a digit is the usual one. -/
theorem digitChar_eq (n : Nat) : digitChar n = (n % 10).digitChar := by
  have every : ∀ d < 10, Char.ofNat ('0'.toNat + d) = d.digitChar := by decide
  exact every (n % 10) (Nat.mod_lt _ (by decide))

/-- The digits of a number are those of its decimal representation. -/
theorem digits_eq_toString (n : Nat) : digits n = (toString n).toList := by
  rw [Nat.toString_eq_repr, Nat.toList_repr]
  induction n using Nat.strongRecOn with
  | ind n ih =>
    rw [digits, Nat.toDigits_eq_if (by decide)]
    by_cases hsmall : n < 10
    · rw [if_pos hsmall, if_pos hsmall, digitChar_eq, Nat.mod_eq_of_lt hsmall]
    · rw [if_neg hsmall, if_neg hsmall, ih (n / 10) (by omega), digitChar_eq]

/-- A digit is no line feed. -/
theorem feed_not_mem_digits (n : Nat) : '\n' ∉ digits n := by
  intro h
  exact absurd (isDigit_of_mem_digits h) (by decide)

end Postmortem.Number
