import Postmortem.Number.Duration

/-!
# Numbers that are durations

Every number of seconds is a duration or none, except the finite ones from `2 ^ 64` on.
-/

namespace Postmortem

open Number

namespace Number.Binary64

/-- A finite number that is not less than a whole number. -/
def AtLeast (x : Binary64) (n : Nat) : Prop :=
  ∃ m e, x = .finite false m e ∧ n * (fraction m e).2 ≤ (fraction m e).1

/-- A fraction has a denominator. -/
theorem fraction_pos (m : Nat) (e : Int) : 0 < (fraction m e).2 := by
  show 0 < (powerOfTwo e).2
  rw [powerOfTwo]
  split
  · exact Nat.one_pos
  · exact Nat.pow_pos (by decide)

/-- A number that is at least a positive one has a significand. -/
theorem significand_ne_zero {m n : Nat} {e : Int} (hn : 0 < n)
    (h : n * (fraction m e).2 ≤ (fraction m e).1) : m ≠ 0 := by
  rintro rfl
  have hpos : 0 < n * (fraction 0 e).2 := Nat.mul_pos hn (fraction_pos 0 e)
  have hzero : (fraction 0 e).1 = 0 := Nat.zero_mul _
  omega

end Number.Binary64

namespace Duration

/-- **A number of seconds is too great exactly if it is finite and at least `2 ^ 64`.** -/
theorem ofBinary64_eq_error_iff (x : Binary64) :
    ofBinary64 x = .error .overflow ↔ x.AtLeast UInt64.size := by
  constructor
  · intro h
    rw [ofBinary64.eq_def] at h
    split at h
    next m e =>
      split at h
      · cases h
      · simp only at h
        split at h
        next hlarge => exact ⟨m, e, rfl, hlarge⟩
        · cases h
    · cases h
  · rintro ⟨m, e, rfl, hlarge⟩
    have hm : (m == 0) = false :=
      beq_false_of_ne (Binary64.significand_ne_zero (by decide) hlarge)
    rw [ofBinary64, hm, if_neg Bool.false_ne_true]
    exact if_pos hlarge

/-- All other numbers of seconds are durations, or none. -/
theorem exists_ofBinary64 {x : Binary64} (h : ¬ x.AtLeast UInt64.size) :
    ∃ limit, ofBinary64 x = .ok limit := by
  cases hx : ofBinary64 x with
  | ok limit => exact ⟨limit, rfl⟩
  | error e =>
    cases e
    exact absurd ((ofBinary64_eq_error_iff x).mp hx) h

end Duration

end Postmortem
