import Mathlib.Algebra.Order.Field.Power
import Mathlib.Data.Rat.Cast.Order
import Mathlib.Tactic.Linarith
import Mathlib.Tactic.NormNum
import Mathlib.Tactic.Positivity
import Mathlib.Tactic.Ring
import Postmortem.Proofs.Number.Decimal
import Postmortem.Proofs.Number.Duration
import Postmortem.Proofs.Settings.Layers
import Postmortem.Settings.Limit

/-!
# Which time limits there are

A limit is a positive number of seconds, and it is rounded to whole nanoseconds. So two things can
go wrong with a number that is positive and finite: from `2 ^ 64` on there is no such duration, and
up to half a nanosecond the duration is zero. For texts both bounds are told in terms of the decimal
number itself, which is rounded to a floating-point number first. Main statements:
`limits_overflow_iff` and `zero_limits_iff`.
-/

namespace Postmortem

open Number

namespace Number.Binary64

/-- A finite number that is not less than a whole one, as a rational number. -/
theorem atLeast_iff {x : Binary64} {n : Nat} (hn : 0 < n) :
    x.AtLeast n ↔ ∃ v, x.value? = some v ∧ n ≤ v := by
  have hcompare (m : Nat) (e : Int) :
      n * (fraction m e).2 ≤ (fraction m e).1 ↔ (n : ℚ) ≤ m * 2 ^ e := by
    obtain ⟨hb, hvalue⟩ := cast_fraction m e
    have hb' : (0 : ℚ) < (fraction m e).2 := by exact_mod_cast hb
    rw [← hvalue, le_div_iff₀ hb']
    exact_mod_cast Iff.rfl
  constructor
  · rintro ⟨m, e, rfl, hle⟩
    exact ⟨_, rfl, by simpa using (hcompare m e).mp hle⟩
  · rintro ⟨v, hv, hle⟩
    have hpos : 0 < v := lt_of_lt_of_le (by exact_mod_cast hn) hle
    obtain ⟨m, e, rfl, -, rfl⟩ := eq_finite_of_pos hv hpos
    exact ⟨m, e, rfl, (hcompare m e).mpr hle⟩

end Number.Binary64

namespace Duration

/-! ## Durations of numbers of seconds -/

/-- Half a nanosecond, in seconds. -/
def halfNano : ℚ := 1 / (2 * 10 ^ 9)

/-- Whether a duration is a number of seconds rounded to whole nanoseconds, in the middle to an even
number of them. -/
def IsRounded (d : Duration) (v : ℚ) : Prop :=
  ∀ n, 0 < n → (n ≤ d.toNanos ↔ RoundsUpTo (v * 10 ^ 9) n 0)

/-- What is rounded is zero up to half a nanosecond. -/
theorem IsRounded.eq_zero_iff {d : Duration} {v : ℚ} (h : d.IsRounded v) :
    d.toNanos = 0 ↔ v ≤ halfNano := by
  have hone := h 1 Nat.one_pos
  rw [roundsUpTo_odd_iff (by decide), Nat.succ_le_iff, Nat.pos_iff_ne_zero] at hone
  rw [← not_iff_not, ← ne_eq, hone, not_le, halfNano]
  norm_num
  constructor <;> intro hlt <;> linarith

/-- A duration of so many nanoseconds has that length, if there is one. -/
theorem toNanos_ofNanos {n : Nat} (h : n < 2 ^ 64 * nanosPerSecond) : (ofNanos n).toNanos = n := by
  have hseconds : n / nanosPerSecond < 2 ^ 64 := (Nat.div_lt_iff_lt_mul (by decide)).mpr h
  have hnanos : n % nanosPerSecond < 2 ^ 32 :=
    Nat.lt_of_lt_of_le (Nat.mod_lt n (by decide)) (by decide)
  rw [toNanos, ofNanos, UInt64.toNat_ofNat', UInt32.toNat_ofNat', Nat.mod_eq_of_lt hseconds,
    Nat.mod_eq_of_lt hnanos, Nat.mul_comm, Nat.div_add_mod]

/-- **A number of seconds is too great exactly from `2 ^ 64` on.** -/
theorem ofBinary64_eq_error_iff_le {x : Binary64} :
    ofBinary64 x = .error .overflow ↔ ∃ v, x.value? = some v ∧ 2 ^ 64 ≤ v := by
  rw [ofBinary64_eq_error_iff, Binary64.atLeast_iff (by decide)]
  norm_num [UInt64.size]

/-- What is no duration is not positive. -/
theorem nonpos_of_ofBinary64_eq_none {x : Binary64} {v : ℚ} (h : ofBinary64 x = .ok none)
    (hv : x.value? = some v) : v ≤ 0 := by
  by_contra hpos
  obtain ⟨m, e, rfl, hm, -⟩ := Binary64.eq_finite_of_pos hv (not_le.mp hpos)
  have hzero : ¬ (m == 0) = true := by simpa using hm.ne'
  rw [ofBinary64, if_neg hzero] at h
  dsimp only at h
  split at h <;> cases h

/-- The number of nanoseconds that a finite number of seconds is rounded to. -/
def nanosFor (m : Nat) (e : Int) : Nat :=
  roundDiv ((Binary64.fraction m e).1 * nanosPerSecond) (Binary64.fraction m e).2

theorem le_nanosFor_iff {m n : Nat} {e : Int} (hn : 0 < n) :
    n ≤ nanosFor m e ↔ RoundsUpTo (m * 2 ^ e * 10 ^ 9) n 0 := by
  obtain ⟨hden, hvalue⟩ := Binary64.cast_fraction m e
  have hnanos : (((Binary64.fraction m e).1 * nanosPerSecond : Nat) : ℚ) /
      (Binary64.fraction m e).2 = m * 2 ^ e * 10 ^ 9 := by
    rw [← hvalue, nanosPerSecond]
    push_cast
    ring
  rw [nanosFor, le_roundDiv_iff_roundsUpTo hden hn, hnanos]

/-- Below `2 ^ 64` seconds there are durations, for what is below is so by more than half a
nanosecond. -/
theorem isRounded_ofNanos {m : Nat} {e : Int} (hm : m < 2 ^ 53)
    (hsmall : (m : ℚ) * 2 ^ e < 2 ^ 64) :
    (ofNanos (nanosFor m e)).IsRounded (m * 2 ^ e) := by
  have hplace : (m : ℚ) * 2 ^ e < (2 ^ 53 : Nat) * 2 ^ (11 : Int) := by
    norm_num
    exact hsmall
  have hbelow := Binary64.le_of_lt_place hm (by norm_num) hplace
  have hfits : nanosFor m e < 2 ^ 64 * nanosPerSecond := by
    by_contra hlarge
    have hnext := (le_nanosFor_iff (by decide)).mp (not_lt.mp hlarge)
    rw [roundsUpTo_even_iff (by decide), nanosPerSecond] at hnext
    norm_num at hbelow hnext
    linarith
  intro n hn
  rw [toNanos_ofNanos hfits, le_nanosFor_iff hn]

/-- **A positive number of seconds is rounded to the nearest nanosecond.** -/
theorem exists_isRounded {x : Binary64} {d : Duration} (hx : x.InFormat)
    (h : ofBinary64 x = .ok (some d)) :
    ∃ v, x.value? = some v ∧ 0 < v ∧ d.IsRounded v := by
  have hfits : ¬ ∃ v, x.value? = some v ∧ 2 ^ 64 ≤ v := by
    rw [← ofBinary64_eq_error_iff_le, h]
    rintro ⟨⟩
  rw [ofBinary64.eq_def] at h
  split at h
  · rename_i m e
    split at h
    · cases h
    rename_i hzero
    have hm : 0 < m := by simpa [Nat.pos_iff_ne_zero] using hzero
    dsimp only at h
    split at h
    · cases h
    cases h
    have hvalue : (Binary64.finite false m e).value? = some ((m : ℚ) * 2 ^ e) := by
      simp [Binary64.value?]
    have hsmall : (m : ℚ) * 2 ^ e < 2 ^ 64 := not_le.mp fun hle => hfits ⟨_, hvalue, hle⟩
    have hpos : (0 : ℚ) < m * 2 ^ e := by positivity
    exact ⟨_, hvalue, hpos, isRounded_ofNanos hx.1 hsmall⟩
  · cases h

/-! ## Durations of texts -/

/-- A text is a limit if it is read as a number of seconds that is one. -/
theorem ofText_eq_ok_iff {text : String} {d : Duration} :
    ofText text = .ok d ↔
      ∃ x, Binary64.ofChars? (Text.trim text.toList) = some x ∧ ofBinary64 x = .ok (some d) := by
  rw [ofText]
  cases Binary64.ofChars? (Text.trim text.toList) with
  | none => simp
  | some x =>
    dsimp only
    cases hlimit : ofBinary64 x with
    | error e => simp [hlimit]
    | ok limit => cases limit <;> simp [hlimit]

/-- And it is too great if that number is. -/
theorem ofText_eq_overflow_iff {text : String} :
    ofText text = .error .overflow ↔
      ∃ x, Binary64.ofChars? (Text.trim text.toList) = some x ∧
        ofBinary64 x = .error .overflow := by
  rw [ofText]
  cases Binary64.ofChars? (Text.trim text.toList) with
  | none => simp
  | some x =>
    dsimp only
    cases hlimit : ofBinary64 x with
    | error e => cases e; simp [hlimit]
    | ok limit => cases limit <;> simp [hlimit]

end Duration

namespace Number

/-- The numbers that are rounded to `2 ^ 64` or more. -/
theorem roundsUpTo_word_iff {r : ℚ} : RoundsUpTo r (2 ^ 53) 11 ↔ 2 ^ 64 - 2 ^ 10 ≤ r := by
  rw [roundsUpTo_even_iff (by norm_num)]
  norm_num

/-- The numbers that are rounded to more than any number of the format. -/
theorem roundsUpTo_last_iff {r : ℚ} :
    RoundsUpTo r (2 ^ 53) Binary64.maxExponent ↔ 2 ^ 1024 - 2 ^ 970 ≤ r := by
  rw [roundsUpTo_even_iff (by norm_num), Binary64.maxExponent]
  have hsplit : (((2 ^ 53 : Nat) : ℚ) - 1 / 2) * 2 ^ (971 : Int) = 2 ^ 1024 - 2 ^ 970 := by
    have hgreat : (2 : ℚ) ^ 1024 = 2 ^ 53 * 2 ^ 971 := by rw [← pow_add]
    have hgap : (2 : ℚ) ^ 971 = 2 ^ 970 * 2 := pow_succ 2 970
    rw [zpow_ofNat, hgreat, hgap]
    generalize (2 : ℚ) ^ 970 = p
    push_cast
    ring
  rw [hsplit]

/-- The numbers that are rounded to more than zero. -/
theorem roundsUpTo_least_iff {r : ℚ} :
    RoundsUpTo r 1 Binary64.minExponent ↔ 2 ^ (-1075 : Int) < r := by
  have hhalf : ((1 : Nat) - 1 / 2 : ℚ) * 2 ^ Binary64.minExponent = 2 ^ (-1075 : Int) := by
    rw [Binary64.minExponent, show (-1074 : Int) = -1075 + 1 by norm_num,
      zpow_add_one₀ (by norm_num)]
    ring
  rw [roundsUpTo_odd_iff (by norm_num), hhalf]

/-- The numbers that are rounded to more than half a nanosecond. -/
theorem roundsUpTo_halfNano_iff {r : ℚ} :
    RoundsUpTo r 4835703278458517 (-83) ↔ 9671406556917033 / 2 ^ 84 < r := by
  rw [roundsUpTo_odd_iff (by norm_num)]
  norm_num

end Number

namespace Duration

/-! ## Bounds of decimal numbers -/

/-- **A decimal text is too great a limit exactly if its number is rounded to `2 ^ 64` or more, and
not to the infinite number.** -/
theorem ofText_eq_overflow_iff_isDecimal {text : String} :
    ofText text = .error .overflow ↔
      ∃ w, Binary64.IsDecimal w (Text.trim text.toList) ∧ 2 ^ 64 - 2 ^ 10 ≤ w ∧
        w < 2 ^ 1024 - 2 ^ 970 := by
  have hword : Binary64.IsPlace (2 ^ 53) 11 :=
    ⟨by norm_num, le_rfl, by decide, by decide, .inl (by norm_num)⟩
  have hlast : Binary64.IsPlace (2 ^ 53) Binary64.maxExponent :=
    ⟨by norm_num, le_rfl, by decide, le_rfl, .inl (by norm_num)⟩
  have hpower : ((2 ^ 53 : Nat) : ℚ) * 2 ^ (11 : Int) = 2 ^ 64 := by norm_num
  rw [ofText_eq_overflow_iff]
  constructor
  · rintro ⟨x, hread, hoverflow⟩
    obtain ⟨v, hv, hlarge⟩ := ofBinary64_eq_error_iff_le.mp hoverflow
    have hpos : 0 < v := lt_of_lt_of_le (by norm_num) hlarge
    obtain ⟨w, hw, hnearest⟩ := Binary64.exists_isDecimal_of_ofChars? hread hv hpos
    refine ⟨w, hw, ?_, ?_⟩
    · rw [← roundsUpTo_word_iff, ← hnearest _ _ hword, Binary64.reaches_iff hv, hpower]
      exact hlarge
    · rw [← not_le, ← roundsUpTo_last_iff, ← hnearest _ _ hlast, Binary64.reaches_iff hv, not_le]
      exact_mod_cast Binary64.value_lt (Binary64.inFormat_of_ofChars? hread) hv
  · rintro ⟨w, hw, hlow, hhigh⟩
    have hpos : 0 < w := lt_of_lt_of_le (by norm_num) hlow
    obtain ⟨x, hread, hnearest⟩ := Binary64.exists_ofChars?_of_isDecimal hw hpos
    refine ⟨x, hread, ofBinary64_eq_error_iff_le.mpr ?_⟩
    rw [← roundsUpTo_word_iff, ← hnearest _ _ hword] at hlow
    rw [← not_le, ← roundsUpTo_last_iff, ← hnearest _ _ hlast] at hhigh
    rcases hlow with rfl | ⟨v, hv, hle⟩
    · exact absurd (.inl rfl) hhigh
    · exact ⟨v, hv, hpower ▸ hle⟩

/-- A positive number of seconds gives a duration below `2 ^ 64`. -/
theorem exists_ofBinary64_eq_some {x : Binary64} {v : ℚ} (hv : x.value? = some v) (hpos : 0 < v)
    (hsmall : v < 2 ^ 64) : ∃ d, ofBinary64 x = .ok (some d) := by
  cases hlimit : ofBinary64 x with
  | error e =>
    cases e
    obtain ⟨w, hw, hlarge⟩ := ofBinary64_eq_error_iff_le.mp hlimit
    rw [hv, Option.some_inj] at hw
    linarith
  | ok limit =>
    cases limit with
    | some d => exact ⟨d, rfl⟩
    | none =>
      have := nonpos_of_ofBinary64_eq_none hlimit hv
      linarith

/-- **A positive number of seconds gives no time at all up to half a nanosecond.** -/
theorem exists_ofBinary64_eq_zero_iff {x : Binary64} (hx : x.InFormat) :
    (∃ d, ofBinary64 x = .ok (some d) ∧ d.toNanos = 0) ↔
      ∃ v, x.value? = some v ∧ 0 < v ∧ v ≤ halfNano := by
  constructor
  · rintro ⟨d, hd, hzero⟩
    obtain ⟨v, hv, hpos, hrounded⟩ := exists_isRounded hx hd
    exact ⟨v, hv, hpos, hrounded.eq_zero_iff.mp hzero⟩
  · rintro ⟨v, hv, hpos, hhalf⟩
    have hsmall : v < 2 ^ 64 := lt_of_le_of_lt hhalf (by norm_num [halfNano])
    obtain ⟨d, hd⟩ := exists_ofBinary64_eq_some hv hpos hsmall
    obtain ⟨w, hw, -, hrounded⟩ := exists_isRounded hx hd
    rw [hv, Option.some_inj] at hw
    subst hw
    exact ⟨d, hd, hrounded.eq_zero_iff.mpr hhalf⟩

/-- The least number of the format that is more than half a nanosecond. -/
theorem reaches_halfNano_iff {x : Binary64} {v : ℚ} (hx : x.InFormat) (hv : x.value? = some v) :
    x.Reaches 4835703278458517 (-83) ↔ halfNano < v := by
  rw [Binary64.reaches_iff hv]
  constructor
  · exact lt_of_lt_of_le (by norm_num [halfNano])
  · intro hhalf
    by_contra hbelow
    have hle := Binary64.value_le_of_lt_place hx hv (by norm_num) (not_le.mp hbelow)
    norm_num [halfNano] at hle hhalf
    linarith

/-- **A decimal text is a limit of no time at all exactly if its number is rounded to more than
zero, and to half a nanosecond or less.** -/
theorem exists_ofText_eq_zero_iff {text : String} :
    (∃ d, ofText text = .ok d ∧ d.toNanos = 0) ↔
      ∃ w, Binary64.IsDecimal w (Text.trim text.toList) ∧ 2 ^ (-1075 : Int) < w ∧
        w ≤ 9671406556917033 / 2 ^ 84 := by
  have hleast : Binary64.IsPlace 1 Binary64.minExponent :=
    ⟨Nat.one_pos, by norm_num, le_rfl, by decide, .inr rfl⟩
  have hhalf : Binary64.IsPlace 4835703278458517 (-83) :=
    ⟨by norm_num, by norm_num, by decide, by decide, .inl (by norm_num)⟩
  constructor
  · rintro ⟨d, htext, hzero⟩
    obtain ⟨x, hread, hd⟩ := ofText_eq_ok_iff.mp htext
    have hx := Binary64.inFormat_of_ofChars? hread
    obtain ⟨v, hv, hpos, hsmall⟩ := (exists_ofBinary64_eq_zero_iff hx).mp ⟨d, hd, hzero⟩
    obtain ⟨w, hw, hnearest⟩ := Binary64.exists_isDecimal_of_ofChars? hread hv hpos
    refine ⟨w, hw, ?_, ?_⟩
    · rwa [← roundsUpTo_least_iff, ← hnearest _ _ hleast, Binary64.reaches_least_iff hx hv]
    · rwa [← not_lt, ← roundsUpTo_halfNano_iff, ← hnearest _ _ hhalf, reaches_halfNano_iff hx hv,
        not_lt]
  · rintro ⟨w, hw, hlow, hhigh⟩
    have hpos : 0 < w := lt_trans (by positivity) hlow
    obtain ⟨x, hread, hnearest⟩ := Binary64.exists_ofChars?_of_isDecimal hw hpos
    have hx := Binary64.inFormat_of_ofChars? hread
    rw [← roundsUpTo_least_iff, ← hnearest _ _ hleast] at hlow
    rw [← not_lt, ← roundsUpTo_halfNano_iff, ← hnearest _ _ hhalf] at hhigh
    rcases hlow with rfl | ⟨v, hv, hle⟩
    · exact absurd (.inl rfl) hhigh
    · rw [reaches_halfNano_iff hx hv, not_lt] at hhigh
      have hvpos := (Binary64.reaches_least_iff hx hv).mp (.inr ⟨v, hv, hle⟩)
      obtain ⟨d, hd, hzero⟩ := (exists_ofBinary64_eq_zero_iff hx).mpr ⟨v, hv, hvpos, hhigh⟩
      exact ⟨d, ofText_eq_ok_iff.mpr ⟨x, hread, hd⟩, hzero⟩

end Duration

/-! ## Limits of settings -/

namespace Settings

theorem traceLimit_eq_ok_iff {s : Settings} {d : Duration} :
    s.traceLimit = .ok (some d) ↔
      ∃ x, s.timeout = some x ∧ Duration.ofBinary64 x = .ok (some d) := by
  rw [traceLimit]
  cases s.timeout <;> simp

theorem traceLimit_eq_error_iff {s : Settings} :
    s.traceLimit = .error .overflow ↔
      ∃ x, s.timeout = some x ∧ Duration.ofBinary64 x = .error .overflow := by
  rw [traceLimit]
  cases s.timeout <;> simp

/-- A limit of judged runs that is no duration is two seconds. -/
theorem judgeLimit_eq_ok_iff {s : Settings} {d : Duration} :
    s.judgeLimit = .ok d ↔ Duration.ofBinary64 s.judgeTimeout = .ok (some d) ∨
      (Duration.ofBinary64 s.judgeTimeout = .ok none ∧ d = .ofSeconds 2) := by
  rw [judgeLimit]
  cases Duration.ofBinary64 s.judgeTimeout with
  | error e => simp
  | ok limit => cases limit <;> simp [eq_comm]

theorem judgeLimit_eq_error_iff {s : Settings} :
    s.judgeLimit = .error .overflow ↔ Duration.ofBinary64 s.judgeTimeout = .error .overflow := by
  rw [judgeLimit]
  cases Duration.ofBinary64 s.judgeTimeout with
  | error e => simp
  | ok limit => simp

end Settings

/-- **Which limits are too great to be durations.** No other number of seconds is: what is not a
number, not finite or not positive is refused or replaced before. -/
theorem limits_overflow_iff (text : String) (s : Settings) :
    (Duration.ofText text = .error .overflow ↔
      ∃ w, Binary64.IsDecimal w (Text.trim text.toList) ∧ 2 ^ 64 - 2 ^ 10 ≤ w ∧
        w < 2 ^ 1024 - 2 ^ 970) ∧
    (s.traceLimit = .error .overflow ↔
      ∃ x v, s.timeout = some x ∧ x.value? = some v ∧ 2 ^ 64 ≤ v) ∧
    (s.judgeLimit = .error .overflow ↔
      ∃ v, s.judgeTimeout.value? = some v ∧ 2 ^ 64 ≤ v) := by
  refine ⟨Duration.ofText_eq_overflow_iff_isDecimal, ?_, ?_⟩
  · rw [Settings.traceLimit_eq_error_iff]
    simp only [Duration.ofBinary64_eq_error_iff_le, exists_and_left]
  · rw [Settings.judgeLimit_eq_error_iff, Duration.ofBinary64_eq_error_iff_le]

/-- Limits that are positive and finite, and too great: one of a text, and one of a file. -/
theorem overflowing_limits :
    Duration.ofText "1e20" = .error .overflow ∧
      (Settings.load
        (FileStore.empty.addFile [Settings.localFile]
          (Text.Utf8.ofString "judge_timeout_secs = 1e20"))
        [] "/" none).judgeLimit = .error .overflow := by
  constructor
  · have hread : Binary64.ofChars? (Text.trim "1e20".toList) =
        some (.finite false 6103515625000000 14) := by decide +kernel
    exact Duration.ofText_eq_overflow_iff.mpr ⟨_, hread, rfl⟩
  · have hload : (Settings.load
        (FileStore.empty.addFile [Settings.localFile]
          (Text.Utf8.ofString "judge_timeout_secs = 1e20"))
        [] "/" none).judgeTimeout = .finite false 6103515625000000 14 := by decide +kernel
    rw [Settings.judgeLimit_eq_error_iff, hload, Duration.ofBinary64_eq_error_iff_le]
    exact ⟨_, rfl, by norm_num⟩

/-- **Which limits are no time at all.** All others are positive. -/
theorem zero_limits_iff (text : String) (s : Settings) (hs : s.InFormat) :
    ((∃ d, Duration.ofText text = .ok d ∧ d.toNanos = 0) ↔
      ∃ w, Binary64.IsDecimal w (Text.trim text.toList) ∧ 2 ^ (-1075 : Int) < w ∧
        w ≤ 9671406556917033 / 2 ^ 84) ∧
    ((∃ d, s.traceLimit = .ok (some d) ∧ d.toNanos = 0) ↔
      ∃ x v, s.timeout = some x ∧ x.value? = some v ∧ 0 < v ∧ v ≤ Duration.halfNano) ∧
    ((∃ d, s.judgeLimit = .ok d ∧ d.toNanos = 0) ↔
      ∃ v, s.judgeTimeout.value? = some v ∧ 0 < v ∧ v ≤ Duration.halfNano) := by
  refine ⟨Duration.exists_ofText_eq_zero_iff, ⟨?_, ?_⟩, ⟨?_, ?_⟩⟩
  · rintro ⟨d, hlimit, hzero⟩
    obtain ⟨x, hx, hd⟩ := Settings.traceLimit_eq_ok_iff.mp hlimit
    obtain ⟨v, hv⟩ := (Duration.exists_ofBinary64_eq_zero_iff (hs.timeout x hx)).mp ⟨d, hd, hzero⟩
    exact ⟨x, v, hx, hv⟩
  · rintro ⟨x, v, hx, hv⟩
    obtain ⟨d, hd, hzero⟩ :=
      (Duration.exists_ofBinary64_eq_zero_iff (hs.timeout x hx)).mpr ⟨v, hv⟩
    exact ⟨d, Settings.traceLimit_eq_ok_iff.mpr ⟨x, hx, hd⟩, hzero⟩
  · rintro ⟨d, hlimit, hzero⟩
    rcases Settings.judgeLimit_eq_ok_iff.mp hlimit with hd | ⟨-, rfl⟩
    · exact (Duration.exists_ofBinary64_eq_zero_iff hs.judgeTimeout).mp ⟨d, hd, hzero⟩
    · exact absurd hzero (by decide)
  · intro hv
    obtain ⟨d, hd, hzero⟩ := (Duration.exists_ofBinary64_eq_zero_iff hs.judgeTimeout).mpr hv
    exact ⟨d, Settings.judgeLimit_eq_ok_iff.mpr (.inl hd), hzero⟩

/-- The least positive number is a limit of no time at all. -/
theorem zero_limits_least :
    let s : Settings := { timeout := some (.finite false 1 (-1074)) }
    s.InFormat ∧ ∃ d, s.traceLimit = .ok (some d) ∧ d.toNanos = 0 := by
  intro s
  have hs : s.InFormat := by
    refine ⟨?_, by decide⟩
    rintro x ⟨⟩
    decide
  have hleast : (2 : ℚ) ^ (-1074 : Int) ≤ Duration.halfNano :=
    calc (2 : ℚ) ^ (-1074 : Int) ≤ 2 ^ (-31 : Int) :=
          zpow_le_zpow_right₀ (by norm_num) (by norm_num)
      _ ≤ Duration.halfNano := by norm_num [Duration.halfNano]
  have hvalue : (Binary64.finite false 1 (-1074)).value? = some (2 ^ (-1074 : Int)) := by
    simp [Binary64.value?]
  exact ⟨hs, (zero_limits_iff "" s hs).2.1.mpr ⟨_, _, rfl, hvalue, by positivity, hleast⟩⟩

/-- Limits that are accepted as positive, and are no time at all: one of a text, and one of a file.
-/
theorem vanishing_limits :
    Duration.ofText "1e-10" = .ok ⟨0, 0⟩ ∧
      (Settings.load
        (FileStore.empty.addFile [Settings.localFile]
          (Text.Utf8.ofString "judge_timeout_secs = 1e-10"))
        [] "/" none).judgeLimit = .ok ⟨0, 0⟩ := by
  constructor
  · have hread : Binary64.ofChars? (Text.trim "1e-10".toList) =
        some (.finite false 7737125245533627 (-86)) := by decide +kernel
    exact Duration.ofText_eq_ok_iff.mpr ⟨_, hread, rfl⟩
  · have hload : (Settings.load
        (FileStore.empty.addFile [Settings.localFile]
          (Text.Utf8.ofString "judge_timeout_secs = 1e-10"))
        [] "/" none).judgeTimeout = .finite false 7737125245533627 (-86) := by decide +kernel
    rw [Settings.judgeLimit_eq_ok_iff, hload]
    exact .inl rfl

end Postmortem
