import Mathlib.Algebra.Order.Field.Power
import Mathlib.Data.Rat.Cast.Order
import Mathlib.Tactic.FieldSimp
import Mathlib.Tactic.Linarith
import Mathlib.Tactic.NormNum
import Mathlib.Tactic.Positivity
import Mathlib.Tactic.Ring
import Postmortem.Number.Binary64

/-!
# Rounding to floating-point numbers

A ratio is rounded to the floating-point number nearest to it. The positive numbers of the format
form a grid: where two neighbours lie `2 ^ e` apart, each of them is `n * 2 ^ e`. The nearest number
reaches such a place exactly if the ratio is beyond the middle before it, or in the middle and the
place is the even one of the two.

## Shape of the argument

The exponent is chosen so that the scaled ratio has 53 bits, or fewer at the least exponent. On the
grid of that exponent the statement is one about rounding to whole numbers. A place of a finer grid
lies below every number of this one, and so does the middle before it; a place of a coarser grid
lies above them all, and so does its middle.
-/

namespace Postmortem.Number

/-! ## Rounding to whole numbers -/

/-- A rounded quotient reaches a whole number exactly if the quotient is beyond the middle before
it, or in the middle if the number is even. -/
theorem le_roundDiv_iff {num den n : Nat} (hden : 0 < den) (hn : 0 < n) :
    n ≤ roundDiv num den ↔
      (2 * n - 1) * den < 2 * num ∨ ((2 * n - 1) * den = 2 * num ∧ n % 2 = 0) := by
  have hnum : den * (num / den) + num % den = num := Nat.div_add_mod num den
  have hrest : num % den < den := Nat.mod_lt num hden
  unfold roundDiv
  simp only [Bool.or_eq_true, Bool.and_eq_true, decide_eq_true_eq, beq_iff_eq]
  generalize num / den = q at *
  generalize num % den = r at *
  obtain hle | rfl | hlarge : n ≤ q ∨ n = q + 1 ∨ q + 2 ≤ n := by omega
  · have hmul : (2 * n - 1) * den + den ≤ 2 * (den * q) := by
      have hstep : (2 * n - 1) * den + den = 2 * n * den := by
        rw [← Nat.succ_mul]
        congr 1
        omega
      rw [hstep, Nat.mul_assoc, Nat.mul_comm den q]
      exact Nat.mul_le_mul_left 2 (Nat.mul_le_mul_right den hle)
    refine ⟨fun _ => .inl (by omega), fun _ => ?_⟩
    split <;> omega
  · -- whether the quotient is rounded up
    have hmul : (2 * (q + 1) - 1) * den = 2 * (den * q) + den := by
      have hodd : 2 * (q + 1) - 1 = 2 * q + 1 := by omega
      rw [hodd, Nat.succ_mul, Nat.mul_assoc, Nat.mul_comm q den]
    rw [hmul]
    split <;> omega
  · have hmul : 2 * (den * q) + 3 * den ≤ (2 * n - 1) * den := by
      have hstep : 2 * (den * q) + 3 * den = (2 * q + 3) * den := by
        rw [Nat.add_mul, Nat.mul_assoc, Nat.mul_comm den q]
      rw [hstep]
      exact Nat.mul_le_mul_right den (by omega)
    split <;> omega

/-- Whether a number is rounded to `n * 2 ^ e` or more, if numbers lie `2 ^ e` apart there: it is
beyond the middle before that, or in the middle if `n` is even. -/
def RoundsUpTo (r : ℚ) (n : Nat) (e : Int) : Prop :=
  (n - 1 / 2) * 2 ^ e < r ∨ ((n - 1 / 2) * 2 ^ e = r ∧ n % 2 = 0)

/-- In the middle, an even number is rounded up to. -/
theorem roundsUpTo_even_iff {r : ℚ} {n : Nat} {e : Int} (hn : n % 2 = 0) :
    RoundsUpTo r n e ↔ (n - 1 / 2) * 2 ^ e ≤ r := by
  rw [RoundsUpTo, le_iff_lt_or_eq, and_iff_left hn]

/-- And an odd one is not. -/
theorem roundsUpTo_odd_iff {r : ℚ} {n : Nat} {e : Int} (hn : n % 2 = 1) :
    RoundsUpTo r n e ↔ (n - 1 / 2) * 2 ^ e < r := by
  rw [RoundsUpTo, or_iff_left]
  rintro ⟨-, heven⟩
  omega

/-- A rounded quotient, compared with the ratio itself. -/
theorem le_roundDiv_iff_roundsUpTo {num den n : Nat} (hden : 0 < den) (hn : 0 < n) :
    n ≤ roundDiv num den ↔ RoundsUpTo ((num : ℚ) / den) n 0 := by
  have hden' : (0 : ℚ) < den := by exact_mod_cast hden
  have hleft : (((2 * n - 1) * den : Nat) : ℚ) = (n - 1 / 2) * 2 ^ (0 : Int) * (2 * den) := by
    rw [Nat.cast_mul, Nat.cast_sub (by omega), zpow_zero]
    push_cast
    ring
  have hright : ((2 * num : Nat) : ℚ) = (num : ℚ) / den * (2 * den) := by
    push_cast
    field_simp
  have hpos : (0 : ℚ) < 2 * den := by positivity
  rw [le_roundDiv_iff hden hn, RoundsUpTo, ← Nat.cast_lt (α := ℚ), ← Nat.cast_inj (R := ℚ), hleft,
    hright, mul_lt_mul_iff_left₀ hpos, mul_left_inj' hpos.ne']

namespace Binary64

/-! ## Floating-point numbers as rational ones -/

/-- The number that a floating-point number is, if it is finite. -/
def value? : Binary64 → Option ℚ
  | finite negative m e => some ((if negative then -1 else 1) * (m * 2 ^ e))
  | _ => none

/-- The sign of a floating-point number, if it is a number. -/
def sign? : Binary64 → Option Bool
  | nan => none
  | infinite negative => some negative
  | finite negative _ _ => some negative

/-- Whether a significand and an exponent are those of the format. -/
def InFormat : Binary64 → Prop
  | finite _ m e => m < 2 ^ 53 ∧ minExponent ≤ e ∧ e ≤ maxExponent
  | _ => True

instance : DecidablePred InFormat := fun x => by
  cases x <;> unfold InFormat <;> infer_instance

/-- Powers of two have positive parts. -/
theorem powerOfTwo_pos (e : Int) : 0 < (powerOfTwo e).1 ∧ 0 < (powerOfTwo e).2 := by
  rw [powerOfTwo]
  split
  · exact ⟨Nat.pow_pos (by decide), Nat.one_pos⟩
  · exact ⟨Nat.one_pos, Nat.pow_pos (by decide)⟩

/-- A power of two is the ratio of its parts. -/
theorem cast_powerOfTwo (e : Int) :
    ((powerOfTwo e).1 : ℚ) = 2 ^ e * ((powerOfTwo e).2 : ℚ) := by
  rw [powerOfTwo]
  split
  · rename_i h
    obtain ⟨n, rfl⟩ := Int.eq_ofNat_of_zero_le h
    simp
  · rename_i h
    obtain ⟨n, hn⟩ := Int.eq_ofNat_of_zero_le (by omega : 0 ≤ -e)
    have he : e = -(n : Int) := by omega
    subst he
    simp

/-- The fraction of a finite number is its size. -/
theorem cast_fraction (m : Nat) (e : Int) :
    0 < (fraction m e).2 ∧ ((fraction m e).1 : ℚ) / (fraction m e).2 = m * 2 ^ e := by
  have hb := (powerOfTwo_pos e).2
  have hb' : ((powerOfTwo e).2 : ℚ) ≠ 0 := by exact_mod_cast hb.ne'
  refine ⟨hb, ?_⟩
  show ((m * (powerOfTwo e).1 : Nat) : ℚ) / (powerOfTwo e).2 = _
  rw [Nat.cast_mul, cast_powerOfTwo]
  field_simp

/-- A number with a positive value is finite and has the positive sign. -/
theorem eq_finite_of_pos {x : Binary64} {v : ℚ} (hv : x.value? = some v) (hpos : 0 < v) :
    ∃ m e, x = finite false m e ∧ 0 < m ∧ v = m * 2 ^ e := by
  cases x with
  | nan => cases hv
  | infinite => cases hv
  | finite negative m e =>
    cases hv
    cases negative with
    | true =>
      have hsize : (0 : ℚ) ≤ m * 2 ^ e := by positivity
      simp only [if_true] at hpos
      linarith
    | false =>
      simp only [Bool.false_eq_true, if_false, one_mul] at hpos ⊢
      have hm : m ≠ 0 := by
        rintro rfl
        simp at hpos
      exact ⟨m, e, rfl, Nat.pos_of_ne_zero hm, rfl⟩

/-! ## The exponent of a ratio -/

/-- The scaled quotient is below a whole number exactly if the ratio is. -/
theorem scaled_lt_iff {num den : Nat} (hden : 0 < den) (e : Int) (n : Nat) :
    num * (powerOfTwo e).2 / (den * (powerOfTwo e).1) < n ↔ (num : ℚ) / den < n * 2 ^ e := by
  obtain ⟨ha, hb⟩ := powerOfTwo_pos e
  have hden' : (0 : ℚ) < den := by exact_mod_cast hden
  have hb' : (0 : ℚ) < (powerOfTwo e).2 := by exact_mod_cast hb
  have hright : ((n * (den * (powerOfTwo e).1) : Nat) : ℚ) =
      n * 2 ^ e * den * (powerOfTwo e).2 := by
    push_cast
    rw [cast_powerOfTwo]
    ring
  rw [Nat.div_lt_iff_lt_mul (Nat.mul_pos hden ha), div_lt_iff₀ hden', ← Nat.cast_lt (α := ℚ),
    hright, Nat.cast_mul, mul_lt_mul_iff_left₀ hb']

/-- The lengths of both parts tell a ratio up to a factor of four. -/
theorem log2_bounds {num den : Nat} (hnum : 0 < num) (hden : 0 < den) :
    2 ^ ((num.log2 : Int) - den.log2 - 1) ≤ (num : ℚ) / den ∧
      (num : ℚ) / den < 2 ^ ((num.log2 : Int) - den.log2 + 1) := by
  have hden' : (0 : ℚ) < den := by exact_mod_cast hden
  have hnum_le : (2 : ℚ) ^ num.log2 ≤ num := by exact_mod_cast Nat.log2_self_le hnum.ne'
  have hnum_lt : (num : ℚ) < 2 ^ (num.log2 + 1) := by exact_mod_cast Nat.lt_log2_self
  have hden_le : (2 : ℚ) ^ den.log2 ≤ den := by exact_mod_cast Nat.log2_self_le hden.ne'
  have hden_lt : (den : ℚ) < 2 ^ (den.log2 + 1) := by exact_mod_cast Nat.lt_log2_self
  have hsum {a b : Int} {k : Nat} (h : a + k = b) : (2 : ℚ) ^ a * 2 ^ k = 2 ^ b := by
    rw [← zpow_natCast, ← zpow_add₀ (by norm_num), h]
  constructor
  · rw [le_div_iff₀ hden']
    calc (2 : ℚ) ^ ((num.log2 : Int) - den.log2 - 1) * den
        ≤ 2 ^ ((num.log2 : Int) - den.log2 - 1) * 2 ^ (den.log2 + 1) := by gcongr
      _ = 2 ^ (num.log2 : Int) := hsum (by push_cast; ring)
      _ ≤ num := by rwa [zpow_natCast]
  · rw [div_lt_iff₀ hden']
    calc (num : ℚ) < 2 ^ (num.log2 + 1) := hnum_lt
      _ = 2 ^ ((num.log2 + 1 : Nat) : Int) := (zpow_natCast _ _).symm
      _ = 2 ^ ((num.log2 : Int) - den.log2 + 1) * 2 ^ den.log2 :=
          (hsum (by push_cast; ring)).symm
      _ ≤ 2 ^ ((num.log2 : Int) - den.log2 + 1) * den := by gcongr

/-- The exponent of a ratio scales it to 53 bits, or to fewer if it is the least one. -/
theorem exponentFor_spec {num den : Nat} (hnum : 0 < num) (hden : 0 < den) :
    minExponent ≤ exponentFor num den ∧
      (num : ℚ) / den < 2 ^ 53 * 2 ^ exponentFor num den ∧
      (exponentFor num den = minExponent ∨
        2 ^ 52 * 2 ^ exponentFor num den ≤ (num : ℚ) / den) := by
  obtain ⟨hlower, hupper⟩ := log2_bounds hnum hden
  have hexponent (low : Int) (hlow : low = max ((num.log2 : Int) - den.log2 - 53) minExponent) :
      exponentFor num den =
        if (num : ℚ) / den < (2 ^ 53 : Nat) * 2 ^ low then low else low + 1 := by
    subst hlow
    exact if_congr (scaled_lt_iff hden _ _) rfl rfl
  rw [hexponent _ rfl]
  set low := max ((num.log2 : Int) - den.log2 - 53) minExponent with hlow
  push_cast
  have hstep : (2 : ℚ) ^ (low + 1) = 2 * 2 ^ low := by
    rw [zpow_add_one₀ (by norm_num), mul_comm]
  split
  · rename_i hfits
    refine ⟨le_max_right _ _, hfits, ?_⟩
    obtain hleft | hmin := max_choice ((num.log2 : Int) - den.log2 - 53) minExponent
    · right
      calc (2 : ℚ) ^ 52 * 2 ^ low = 2 ^ ((num.log2 : Int) - den.log2 - 1) := by
            rw [hlow, hleft, ← zpow_natCast, ← zpow_add₀ (by norm_num)]
            congr 1
            push_cast
            ring
        _ ≤ _ := hlower
    · exact .inl hmin
  · rename_i hlarge
    refine ⟨?_, ?_, .inr ?_⟩
    · have := le_max_right ((num.log2 : Int) - den.log2 - 53) minExponent
      omega
    · rw [hstep]
      calc (num : ℚ) / den < 2 ^ ((num.log2 : Int) - den.log2 + 1) := hupper
        _ ≤ 2 ^ (low + 54) := zpow_le_zpow_right₀ (by norm_num) (by omega)
        _ = 2 ^ 53 * (2 * 2 ^ low) := by
            rw [zpow_add₀ (by norm_num)]
            norm_num
            ring
    · rw [hstep]
      linarith

/-! ## The significand of a ratio -/

/-- The significand of a ratio at its exponent, before one of 54 bits is halved. -/
def significandFor (num den : Nat) : Nat :=
  roundDiv (num * (powerOfTwo (exponentFor num den)).2)
    (den * (powerOfTwo (exponentFor num den)).1)

/-- It is the ratio rounded to a multiple of a power of two. -/
theorem le_significandFor_iff {num den n : Nat} (hden : 0 < den) (hn : 0 < n) :
    n ≤ significandFor num den ↔ RoundsUpTo ((num : ℚ) / den) n (exponentFor num den) := by
  obtain ⟨ha, hb⟩ := powerOfTwo_pos (exponentFor num den)
  have hden' : (den : ℚ) ≠ 0 := by exact_mod_cast hden.ne'
  have hb' : ((powerOfTwo (exponentFor num den)).2 : ℚ) ≠ 0 := by exact_mod_cast hb.ne'
  have he : (0 : ℚ) < 2 ^ exponentFor num den := by positivity
  have hscaled : ((num * (powerOfTwo (exponentFor num den)).2 : Nat) : ℚ) /
      (den * (powerOfTwo (exponentFor num den)).1 : Nat) =
        (num : ℚ) / den / 2 ^ exponentFor num den := by
    push_cast
    rw [cast_powerOfTwo]
    field_simp
  rw [significandFor, le_roundDiv_iff_roundsUpTo (Nat.mul_pos hden ha) hn, hscaled]
  simp only [RoundsUpTo, zpow_zero, mul_one, lt_div_iff₀ he, eq_div_iff he.ne']

/-- It has 53 bits or is the least number of 54, and it has fewer only at the least exponent. -/
theorem significandFor_bounds {num den : Nat} (hnum : 0 < num) (hden : 0 < den) :
    significandFor num den ≤ 2 ^ 53 ∧
      (exponentFor num den = minExponent ∨ 2 ^ 52 ≤ significandFor num den) := by
  obtain ⟨-, hbelow, habove⟩ := exponentFor_spec hnum hden
  have he : (0 : ℚ) < 2 ^ exponentFor num den := by positivity
  constructor
  · by_contra hlarge
    have hnext : 2 ^ 53 + 1 ≤ significandFor num den := by omega
    rw [le_significandFor_iff hden (by norm_num), RoundsUpTo] at hnext
    push_cast at hnext
    rcases hnext with h | ⟨h, -⟩ <;> nlinarith
  · refine habove.imp_right fun hnormal => ?_
    rw [le_significandFor_iff hden (by norm_num), RoundsUpTo]
    left
    push_cast
    nlinarith

/-! ## The nearest number -/

/-- What has at most 53 bits on a finer grid has no more than 53 on a coarser one. -/
theorem mul_zpow_le_of_lt {n : Nat} {e g : Int} (hn : n ≤ 2 ^ 53) (hlt : e < g) :
    (n : ℚ) * 2 ^ e ≤ 2 ^ 52 * 2 ^ g := by
  have hn' : (n : ℚ) ≤ 2 ^ 53 := by exact_mod_cast hn
  calc (n : ℚ) * 2 ^ e ≤ 2 ^ 53 * 2 ^ (g - 1) :=
        mul_le_mul hn' (zpow_le_zpow_right₀ (by norm_num) (by omega)) (by positivity)
          (by positivity)
    _ = 2 ^ 52 * 2 ^ g := by
        rw [zpow_sub_one₀ (by norm_num)]
        ring

/-- A place among the positive numbers of the format, before which they lie `2 ^ e` apart. The last
one is the least power of two that is too great. -/
structure IsPlace (n : Nat) (e : Int) : Prop where
  pos : 0 < n
  le : n ≤ 2 ^ 53
  min : minExponent ≤ e
  max : e ≤ maxExponent
  dense : 2 ^ 52 < n ∨ e = minExponent

/-- Whether a floating-point number is at least `n * 2 ^ e`. -/
def Reaches (x : Binary64) (n : Nat) (e : Int) : Prop :=
  x = infinite false ∨ ∃ v, x.value? = some v ∧ n * 2 ^ e ≤ v

/-- Whether a floating-point number is the nearest one to a number that is not negative. -/
def IsNearest (r : ℚ) (x : Binary64) : Prop :=
  ∀ n e, IsPlace n e → (x.Reaches n e ↔ RoundsUpTo r n e)

/-- A finite number that reaches a place is at least there. -/
theorem reaches_iff {x : Binary64} {v : ℚ} (hv : x.value? = some v) {n : Nat} {e : Int} :
    x.Reaches n e ↔ n * 2 ^ e ≤ v := by
  rw [Reaches, hv]
  refine ⟨?_, fun h => .inr ⟨v, rfl, h⟩⟩
  rintro (rfl | ⟨w, hw, hle⟩)
  · cases hv
  · cases hw
    exact hle

/-- The rounded ratio reaches a place exactly if the ratio is rounded up to it. -/
theorem le_significandFor_mul_iff {num den n : Nat} {e : Int} (hnum : 0 < num) (hden : 0 < den)
    (hplace : IsPlace n e) :
    (n : ℚ) * 2 ^ e ≤ significandFor num den * 2 ^ exponentFor num den ↔
      RoundsUpTo ((num : ℚ) / den) n e := by
  obtain ⟨hmin, hbelow, habove⟩ := exponentFor_spec hnum hden
  obtain ⟨hm, hnormal⟩ := significandFor_bounds hnum hden
  have hsame : n ≤ significandFor num den ↔ RoundsUpTo ((num : ℚ) / den) n (exponentFor num den) :=
    le_significandFor_iff hden hplace.pos
  generalize exponentFor num den = E at *
  generalize significandFor num den = m at *
  generalize (num : ℚ) / den = r at *
  have hE : (0 : ℚ) < 2 ^ E := by positivity
  have hmq : (m : ℚ) ≤ 2 ^ 53 := by exact_mod_cast hm
  obtain hlt | rfl | hgt := lt_trichotomy e E
  · -- a place of a finer grid
    have hnot : E ≠ minExponent := by
      have := hplace.min
      omega
    have hratio : 2 ^ 52 * 2 ^ E ≤ r := habove.resolve_left hnot
    have hlow : (2 : ℚ) ^ 52 ≤ m := by exact_mod_cast hnormal.resolve_left hnot
    have hfine : (n : ℚ) * 2 ^ e ≤ 2 ^ 52 * 2 ^ E := mul_zpow_le_of_lt hplace.le hlt
    have he : (0 : ℚ) < 2 ^ e := by positivity
    refine ⟨fun _ => .inl (by nlinarith), fun _ => ?_⟩
    calc (n : ℚ) * 2 ^ e ≤ 2 ^ 52 * 2 ^ E := hfine
      _ ≤ m * 2 ^ E := by gcongr
  · rw [mul_le_mul_iff_left₀ hE, Nat.cast_le]
    exact hsame
  · -- a place of a coarser grid
    have hn : (2 : ℚ) ^ 52 + 1 ≤ n := by
      have hdense : 2 ^ 52 < n := hplace.dense.resolve_right (by omega)
      exact_mod_cast hdense
    have hcoarse : (2 : ℚ) * 2 ^ E ≤ 2 ^ e := by
      calc (2 : ℚ) * 2 ^ E = 2 ^ (E + 1) := by rw [zpow_add_one₀ (by norm_num), mul_comm]
        _ ≤ 2 ^ e := zpow_le_zpow_right₀ (by norm_num) (by omega)
    constructor
    · intro h
      nlinarith
    · rintro (h | ⟨h, -⟩) <;> nlinarith

/-- What a ratio is rounded to, with a significand below 54 bits: too great, or a number of the
format. -/
theorem exists_ofRatio (negative : Bool) {num den : Nat} (hnum : 0 < num) (hden : 0 < den) :
    ∃ (m : Nat) (e : Int), (m : ℚ) * 2 ^ e = significandFor num den * 2 ^ exponentFor num den ∧
      m < 2 ^ 53 ∧ minExponent ≤ e ∧ (e = minExponent ∨ 2 ^ 52 ≤ m) ∧
      ofRatio negative num den =
        if maxExponent < e then infinite negative else finite negative m e := by
  obtain ⟨hmin, -, -⟩ := exponentFor_spec hnum hden
  obtain ⟨hm, hnormal⟩ := significandFor_bounds hnum hden
  have hzero : ¬ (num == 0) = true := by simpa using hnum.ne'
  rw [ofRatio, if_neg hzero]
  by_cases hlast : significandFor num den = 2 ^ 53
  · refine ⟨2 ^ 52, exponentFor num den + 1, ?_, by norm_num, by omega, .inr le_rfl, ?_⟩
    · rw [hlast, zpow_add_one₀ (by norm_num)]
      push_cast
      ring
    · have hrounded : (significandFor num den == Nat.pow 2 53) = true := by
        rw [hlast]
        rfl
      rw [significandFor] at hrounded
      simp only [hrounded, if_true]
      rfl
  · refine ⟨significandFor num den, exponentFor num den, rfl, lt_of_le_of_ne hm hlast, hmin,
      hnormal, ?_⟩
    have hrounded : (significandFor num den == Nat.pow 2 53) = false := beq_false_of_ne hlast
    rw [significandFor] at hrounded
    simp only [hrounded, Bool.false_eq_true, if_false]
    rfl

/-- A rounded ratio is a number of the format. -/
theorem inFormat_ofRatio (negative : Bool) (num : Nat) {den : Nat} (hden : 0 < den) :
    (ofRatio negative num den).InFormat := by
  obtain rfl | hnum := Nat.eq_zero_or_pos num
  · exact ⟨by norm_num, le_rfl, by decide⟩
  · obtain ⟨m, e, -, hm, hmin, -, hratio⟩ := exists_ofRatio negative hnum hden
    rw [hratio]
    split
    · trivial
    · exact ⟨hm, hmin, by omega⟩

/-- A rounded ratio has the given sign. -/
theorem sign?_ofRatio (negative : Bool) (num : Nat) {den : Nat} (hden : 0 < den) :
    (ofRatio negative num den).sign? = some negative := by
  obtain rfl | hnum := Nat.eq_zero_or_pos num
  · rfl
  · obtain ⟨m, e, -, -, -, -, hratio⟩ := exists_ofRatio negative hnum hden
    rw [hratio]
    split <;> rfl

/-- Zero is nearest to a number that is less than half of the least positive one. -/
theorem isNearest_zero {r : ℚ} (h : r < 2 ^ (-1075 : Int)) : IsNearest r (zero false) := by
  intro n e hplace
  have he : (2 : ℚ) * 2 ^ (-1075 : Int) ≤ 2 ^ e := by
    calc (2 : ℚ) * 2 ^ (-1075 : Int) = 2 ^ (-1074 : Int) := by
          rw [← zpow_one_add₀ (by norm_num)]
          norm_num
      _ ≤ 2 ^ e := zpow_le_zpow_right₀ (by norm_num) hplace.min
  have hn : (1 : ℚ) ≤ n := by exact_mod_cast hplace.pos
  have hpos : (0 : ℚ) < 2 ^ (-1075 : Int) := by positivity
  constructor
  · rintro (h | ⟨v, hv, hle⟩)
    · cases h
    · cases hv
      simp only [Bool.false_eq_true, if_false, Nat.cast_zero, zero_mul, mul_zero] at hle
      nlinarith
  · rintro (hlt | ⟨heq, -⟩) <;> nlinarith

/-- The infinite number is nearest to a number that is too great. -/
theorem isNearest_infinite {r : ℚ} (h : 2 ^ (1024 : Int) ≤ r) : IsNearest r (infinite false) := by
  intro n e hplace
  refine ⟨fun _ => .inl ?_, fun _ => .inl rfl⟩
  have he : (2 : ℚ) ^ e ≤ 2 ^ (971 : Int) := zpow_le_zpow_right₀ (by norm_num) hplace.max
  have hn : (n : ℚ) ≤ 2 ^ 53 := by exact_mod_cast hplace.le
  have hpos : (0 : ℚ) < 2 ^ e := by positivity
  calc ((n : ℚ) - 1 / 2) * 2 ^ e < 2 ^ 53 * 2 ^ e := by nlinarith
    _ ≤ 2 ^ 53 * 2 ^ (971 : Int) := by gcongr
    _ = 2 ^ (1024 : Int) := by
        rw [← zpow_natCast, ← zpow_add₀ (by norm_num)]
        norm_num
    _ ≤ r := h

/-- **A ratio is rounded to the nearest number.** -/
theorem isNearest_ofRatio (num : Nat) {den : Nat} (hden : 0 < den) :
    IsNearest ((num : ℚ) / den) (ofRatio false num den) := by
  obtain rfl | hnum := Nat.eq_zero_or_pos num
  · rw [Nat.cast_zero, zero_div]
    exact isNearest_zero (by positivity)
  intro n e hplace
  obtain ⟨m, e', hvalue, hm, hmin, hnormal, hratio⟩ := exists_ofRatio false hnum hden
  rw [← le_significandFor_mul_iff hnum hden hplace, ← hvalue, hratio, Reaches]
  split
  · -- beyond the greatest exponent, all places are reached
    rename_i hlarge
    refine ⟨fun _ => ?_, fun _ => .inl rfl⟩
    have hlow : (2 : ℚ) ^ 52 ≤ m := by
      have hmax : minExponent < maxExponent := by decide
      exact_mod_cast hnormal.resolve_left (by omega)
    calc (n : ℚ) * 2 ^ e ≤ 2 ^ 52 * 2 ^ e' :=
          mul_zpow_le_of_lt hplace.le (lt_of_le_of_lt hplace.max hlarge)
      _ ≤ m * 2 ^ e' := by gcongr
  · constructor
    · rintro (h | ⟨v, hv, hle⟩)
      · cases h
      · cases hv
        simpa using hle
    · intro hle
      exact .inr ⟨_, rfl, by simpa using hle⟩

/-! ## Gaps between numbers -/

/-- A number of the format is below `2 ^ 1024`. -/
theorem value_lt {x : Binary64} {v : ℚ} (hx : x.InFormat) (hv : x.value? = some v) :
    v < 2 ^ 53 * 2 ^ maxExponent := by
  obtain hneg | hpos := le_or_gt v 0
  · exact lt_of_le_of_lt hneg (by positivity)
  · obtain ⟨m, e, rfl, -, rfl⟩ := eq_finite_of_pos hv hpos
    obtain ⟨hm, -, hmax⟩ := hx
    have hm' : (m : ℚ) < 2 ^ 53 := by exact_mod_cast hm
    calc (m : ℚ) * 2 ^ e < 2 ^ 53 * 2 ^ e := by gcongr
      _ ≤ 2 ^ 53 * 2 ^ maxExponent := by
          gcongr
          norm_num

/-- What is below a place is at most the place before it. -/
theorem le_of_lt_place {m k : Nat} {e g : Int} (hm : m < 2 ^ 53) (hk : 2 ^ 52 < k)
    (h : (m : ℚ) * 2 ^ e < k * 2 ^ g) : (m : ℚ) * 2 ^ e ≤ (k - 1) * 2 ^ g := by
  have hg : (0 : ℚ) < 2 ^ g := by positivity
  obtain hge | hlt := le_or_gt g e
  · -- both are whole multiples of the same power
    obtain ⟨n, hn⟩ := Int.eq_ofNat_of_zero_le (by omega : 0 ≤ e - g)
    have he : e = n + g := by omega
    have hpower : (m : ℚ) * 2 ^ e = (m * 2 ^ n : Nat) * 2 ^ g := by
      rw [he, zpow_add₀ (by norm_num), zpow_natCast]
      push_cast
      ring
    rw [hpower] at h ⊢
    have hlt : m * 2 ^ n < k := by exact_mod_cast (mul_lt_mul_iff_left₀ hg).mp h
    have hle : ((m * 2 ^ n : Nat) : ℚ) ≤ k - 1 := by
      rw [← Nat.cast_one, ← Nat.cast_sub (by omega), Nat.cast_le]
      omega
    gcongr
  · have hk' : (2 : ℚ) ^ 52 + 1 ≤ k := by exact_mod_cast hk
    calc (m : ℚ) * 2 ^ e ≤ 2 ^ 52 * 2 ^ g := mul_zpow_le_of_lt hm.le hlt
      _ ≤ (k - 1) * 2 ^ g := by
          gcongr
          linarith

/-- So a number of the format below a place is at most the place before it. -/
theorem value_le_of_lt_place {x : Binary64} {v : ℚ} {k : Nat} {g : Int} (hx : x.InFormat)
    (hv : x.value? = some v) (hk : 2 ^ 52 < k) (h : v < k * 2 ^ g) : v ≤ (k - 1) * 2 ^ g := by
  obtain hneg | hpos := le_or_gt v 0
  · have hk' : (2 : ℚ) ^ 52 < k := by exact_mod_cast hk
    exact hneg.trans (mul_nonneg (by linarith) (by positivity))
  · obtain ⟨m, e, rfl, -, rfl⟩ := eq_finite_of_pos hv hpos
    exact le_of_lt_place hx.1 hk h

/-- The positive numbers of the format begin with its least place. -/
theorem reaches_least_iff {x : Binary64} {v : ℚ} (hx : x.InFormat) (hv : x.value? = some v) :
    x.Reaches 1 minExponent ↔ 0 < v := by
  have hleast : (0 : ℚ) < 2 ^ minExponent := by positivity
  rw [reaches_iff hv, Nat.cast_one, one_mul]
  refine ⟨hleast.trans_le, fun hpos => ?_⟩
  obtain ⟨m, e, rfl, hm, rfl⟩ := eq_finite_of_pos hv hpos
  have hm' : (1 : ℚ) ≤ m := by exact_mod_cast hm
  calc (2 : ℚ) ^ minExponent ≤ 2 ^ e := zpow_le_zpow_right₀ (by norm_num) hx.2.1
    _ = 1 * 2 ^ e := (one_mul _).symm
    _ ≤ m * 2 ^ e := by gcongr

end Binary64

end Postmortem.Number
