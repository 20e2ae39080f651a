/-!
# Digits

Natural numbers as decimal digits: the digits without leading zeros, and the number that digits
spell. Reading undoes writing.
-/

namespace Postmortem.Number

/-- The character of a digit. -/
def digitChar (n : Nat) : Char := Char.ofNat ('0'.toNat + n % 10)

/-- Whether a character is a decimal digit. -/
def isDigit (c : Char) : Bool := '0'.toNat ≤ c.toNat && c.toNat ≤ '9'.toNat

/-- The digit that a character stands for. -/
def digitValue (c : Char) : Nat := c.toNat - '0'.toNat

/-- The decimal digits of a number. -/
def digits (n : Nat) : List Char :=
  if n < 10 then [digitChar n] else digits (n / 10) ++ [digitChar n]
termination_by n
decreasing_by omega

/-- The number that digits spell. -/
def ofDigits (cs : List Char) : Nat := cs.foldl (fun n c => 10 * n + digitValue c) 0

theorem toNat_digitChar (n : Nat) : (digitChar n).toNat = '0'.toNat + n % 10 := by
  have every : ∀ d < 10, (Char.ofNat ('0'.toNat + d)).toNat = '0'.toNat + d := by decide
  exact every (n % 10) (Nat.mod_lt _ (by decide))

theorem digitValue_digitChar (n : Nat) : digitValue (digitChar n) = n % 10 := by
  rw [digitValue, toNat_digitChar]
  omega

theorem isDigit_digitChar (n : Nat) : isDigit (digitChar n) = true := by
  have h : n % 10 < 10 := Nat.mod_lt _ (by decide)
  have h0 : '0'.toNat = 48 := rfl
  have h9 : '9'.toNat = 57 := rfl
  rw [isDigit, toNat_digitChar, h0, h9]
  simp only [Bool.and_eq_true, decide_eq_true_eq]
  omega

theorem isDigit_of_mem_digits {n : Nat} {c : Char} (h : c ∈ digits n) : isDigit c = true := by
  induction n using Nat.strongRecOn with
  | ind n ih =>
    rw [digits] at h
    split at h
    · rw [List.mem_singleton.mp h]
      exact isDigit_digitChar n
    · rcases List.mem_append.mp h with h | h
      · exact ih (n / 10) (by omega) h
      · rw [List.mem_singleton.mp h]
        exact isDigit_digitChar n

@[simp] theorem ofDigits_digits (n : Nat) : ofDigits (digits n) = n := by
  induction n using Nat.strongRecOn with
  | ind n ih =>
    rw [digits]
    split
    · simp only [ofDigits, List.foldl_cons, List.foldl_nil, digitValue_digitChar]
      omega
    · have := ih (n / 10) (by omega)
      simp only [ofDigits] at this
      simp only [ofDigits, List.foldl_append, List.foldl_cons, List.foldl_nil, this,
        digitValue_digitChar]
      omega

end Postmortem.Number
