import Mathlib.Algebra.Ring.Nat
import Mathlib.Data.List.Induction
import Postmortem.Json.Range

/-!
# Natural numbers are in range

A natural number of 64 bits is read as a finite number: it has all its digits, and neither rounding
it nor multiplying it by one brings it anywhere near the greatest exponent.
-/

namespace Postmortem.Number.Binary64

/-- The exponent of a quotient is about the difference of the two logarithms. -/
theorem exponentFor_le (num den : Nat) :
    exponentFor num den ≤ max ((num.log2 : Int) - den.log2 - 53) minExponent + 1 := by
  rw [exponentFor]
  dsimp only
  split <;> omega

/-- Nor is it less. -/
theorem le_exponentFor (num den : Nat) :
    (num.log2 : Int) - den.log2 - 53 ≤ exponentFor num den := by
  rw [exponentFor]
  dsimp only
  split <;> omega

/-- The logarithm of a number that is not too great. -/
private theorem log2_le {n k : Nat} (h : n < 2 ^ (k + 1)) : n.log2 ≤ k := by
  by_cases hzero : n = 0
  · rw [hzero, Nat.log2_zero]
    exact Nat.zero_le k
  · exact Nat.le_of_lt_succ ((Nat.log2_lt hzero).mpr h)

/-- A quotient that is not too great is a finite number. -/
theorem isFinite_ofRatio (negative : Bool) {num : Nat} (den : Nat) (h : num.log2 ≤ 1022) :
    (ofRatio negative num den).isFinite = true := by
  have he := exponentFor_le num den
  rw [ofRatio]
  split
  · rfl
  · dsimp only
    have hmin : minExponent = -1074 := rfl
    have hmax : maxExponent = 971 := rfl
    rw [if_neg]
    · rfl
    · split <;> (dsimp only; omega)

/-- Rounding a quotient adds at most one. -/
theorem roundDiv_le (num den : Nat) : roundDiv num den ≤ num / den + 1 := by
  rw [roundDiv]
  split <;> omega

/-- A natural number of 64 bits has a moderate significand and exponent. -/
theorem ofNat_moderate {n : Nat} (hn : n < 2 ^ 64) :
    ∃ m e, ofNat n = finite false m e ∧ m ≤ 2 ^ 118 ∧ e ≤ 12 := by
  by_cases hzero : n = 0
  · subst hzero
    exact ⟨0, minExponent, rfl, Nat.zero_le _, by decide⟩
  have hlog : n.log2 ≤ 63 := log2_le hn
  have hone : Nat.log2 1 = 0 := by decide
  have hmin : minExponent = -1074 := rfl
  have hhigh := exponentFor_le n 1
  have hlow := le_exponentFor n 1
  have hbelow : (powerOfTwo (exponentFor n 1)).2 ≤ 2 ^ 53 := by
    rw [powerOfTwo]
    split
    · exact Nat.one_le_two_pow
    · exact Nat.pow_le_pow_right (by decide) (by omega)
  -- scaled so, the number takes no more than 117 bits, and rounding adds one at most
  have hround : roundDiv (n * (powerOfTwo (exponentFor n 1)).2)
      (1 * (powerOfTwo (exponentFor n 1)).1) ≤ 2 ^ 118 := by
    have hprod : n * (powerOfTwo (exponentFor n 1)).2 ≤ 2 ^ 64 * 2 ^ 53 :=
      Nat.mul_le_mul (Nat.le_of_lt hn) hbelow
    have hdiv := Nat.div_le_self (n * (powerOfTwo (exponentFor n 1)).2)
      (1 * (powerOfTwo (exponentFor n 1)).1)
    have hle := roundDiv_le (n * (powerOfTwo (exponentFor n 1)).2)
      (1 * (powerOfTwo (exponentFor n 1)).1)
    omega
  rw [ofNat, ofRatio, if_neg (by simpa using hzero)]
  dsimp only
  -- rounding up to the next power of two moves the exponent
  split
  · refine ⟨Nat.pow 2 52, exponentFor n 1 + 1, if_neg ?_, by decide, by omega⟩
    rw [maxExponent]
    omega
  · refine ⟨_, exponentFor n 1, if_neg ?_, hround, by omega⟩
    rw [maxExponent]
    omega

/-- Multiplied by one, such a number stays finite. -/
theorem isFinite_mul_one {n : Nat} (hn : n < 2 ^ 64) :
    ((ofNat n).mulSizes (ofNat 1)).isFinite = true := by
  obtain ⟨m, e, hvalue, hm, he⟩ := ofNat_moderate hn
  have hone : ofNat 1 = finite false (2 ^ 52) (-52) := by decide +kernel
  have hpower : (powerOfTwo e).1 ≤ 2 ^ 12 := by
    rw [powerOfTwo]
    split
    · exact Nat.pow_le_pow_right (by decide) (by omega)
    · exact Nat.one_le_two_pow
  rw [hvalue, hone]
  have hsize : m * (powerOfTwo e).1 ≤ 2 ^ 118 * 2 ^ 12 := Nat.mul_le_mul hm hpower
  have hone : (powerOfTwo (-52)).1 = 1 := by decide
  have hlog : (m * (powerOfTwo e).1 * (2 ^ 52 * (powerOfTwo (-52)).1)).log2 ≤ 182 := by
    apply log2_le
    rw [hone]
    omega
  exact isFinite_ofRatio false _ (Nat.le_trans hlog (by decide))

end Postmortem.Number.Binary64

namespace Postmortem.Json.Numeral

open Postmortem.Number

/-- The number that digits spell grows with each digit. -/
private theorem ofDigits_concat (ds : List Char) (d : Char) :
    ofDigits (ds ++ [d]) = 10 * ofDigits ds + digitValue d := by
  rw [ofDigits, List.foldl_append]
  rfl

/-- All digits of a number that fits into 64 bits are taken. -/
theorem wholePart_digits (ds : List Char) (h : ofDigits ds < 2 ^ 64) :
    wholePart (ds.map digitValue) = (ofDigits ds, 0) := by
  induction ds using List.reverseRecOn with
  | nil => rfl
  | append_singleton ds d ih =>
    rw [ofDigits_concat] at h
    have hds := ih (by omega)
    rw [wholePart] at hds
    rw [wholePart, List.map_append, List.foldl_append, hds, ofDigits_concat]
    have hfits : ((0 : Nat) == 0 && decide (10 * ofDigits ds + digitValue d < 2 ^ 64)) = true :=
      Bool.and_eq_true_iff.mpr ⟨rfl, decide_eq_true h⟩
    exact if_pos hfits

/-- **A natural number of 64 bits is in range.** -/
theorem inRange_word (n : UInt64) : (⟨false, n.toNat, [], none⟩ : Numeral).inRange = true := by
  have hn : n.toNat < 2 ^ 64 := n.toNat_lt
  have hwhole := wholePart_digits (digits n.toNat) (by rw [ofDigits_digits]; exact hn)
  rw [ofDigits_digits] at hwhole
  rw [inRange, size]
  simp only [hwhole, fractionPart]
  split
  · rfl
  · exact Binary64.isFinite_mul_one hn

end Postmortem.Json.Numeral
