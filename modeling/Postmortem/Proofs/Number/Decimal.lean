import Mathlib.Data.Rat.Cast.Order
import Postmortem.Number.Reading
import Postmortem.Proofs.Json.Number
import Postmortem.Proofs.Number.Rounding

/-!
# Decimal numbers

How decimal numbers are written, and that a decimal text is read as the floating-point number
nearest to its value, however great or small that is. All that is read beside decimals are the names
of the infinite numbers and of no number.

## Shape of the argument

Zeros before a number change neither its value nor how many digits it has without them. That many
digits tell the size of the value up to a factor of ten, which decides whether it can be told
without computing the power of ten that it is infinite or zero.
-/

namespace Postmortem.Number

/-! ## Digits and their value -/

/-- The number that digits spell, by the first of them. -/
theorem ofDigits_cons (c : Char) (ds : List Char) :
    ofDigits (c :: ds) = digitValue c * 10 ^ ds.length + ofDigits ds := by
  have hfold (ds : List Char) (n : Nat) :
      ds.foldl (fun n c => 10 * n + digitValue c) n = n * 10 ^ ds.length + ofDigits ds := by
    induction ds generalizing n with
    | nil => simp [ofDigits]
    | cons d ds ih =>
      have hfirst : ofDigits (d :: ds) =
          ds.foldl (fun n c => 10 * n + digitValue c) (10 * 0 + digitValue d) := rfl
      rw [List.foldl_cons, ih, hfirst, ih, List.length_cons, Nat.pow_succ]
      ring
  have hfirst : ofDigits (c :: ds) =
      ds.foldl (fun n c => 10 * n + digitValue c) (10 * 0 + digitValue c) := rfl
  rw [hfirst, hfold]
  ring

/-- A digit is below ten. -/
theorem digitValue_lt {c : Char} (h : isDigit c = true) : digitValue c < 10 := by
  have h9 : '9'.toNat = 57 := rfl
  have h0 : '0'.toNat = 48 := rfl
  simp only [isDigit, Bool.and_eq_true, decide_eq_true_eq] at h
  rw [digitValue]
  omega

/-- Only one digit is zero. -/
theorem digitValue_pos {c : Char} (h : isDigit c = true) (hzero : c ≠ '0') : 0 < digitValue c := by
  have h0 : '0'.toNat = 48 := rfl
  have hne : c.toNat ≠ '0'.toNat := fun heq => hzero (Char.toNat_inj.mp heq)
  simp only [isDigit, Bool.and_eq_true, decide_eq_true_eq] at h
  rw [digitValue]
  omega

/-- Digits spell a number that has no more of them. -/
theorem ofDigits_lt {ds : List Char} (h : ∀ c ∈ ds, isDigit c = true) :
    ofDigits ds < 10 ^ ds.length := by
  induction ds with
  | nil => exact Nat.one_pos
  | cons c ds ih =>
    obtain ⟨hc, hds⟩ := List.forall_mem_cons.mp h
    have hlt := ih hds
    have hvalue : digitValue c + 1 ≤ 10 := digitValue_lt hc
    have hmul := Nat.mul_le_mul_right (10 ^ ds.length) hvalue
    rw [ofDigits_cons, List.length_cons, Nat.pow_succ]
    rw [Nat.succ_mul] at hmul
    omega

/-- Zeros before a number do not count. -/
theorem ofDigits_dropWhile (ds : List Char) :
    ofDigits (ds.dropWhile (· == '0')) = ofDigits ds := by
  induction ds with
  | nil => rfl
  | cons c ds ih =>
    rw [List.dropWhile_cons]
    split
    · rename_i hc
      have hzero : digitValue '0' = 0 := rfl
      rw [ih, ofDigits_cons, beq_iff_eq.mp hc, hzero, Nat.zero_mul, Nat.zero_add]
    · rfl

/-- Without them, a number has all its digits. -/
theorem le_ofDigits_dropWhile {ds : List Char} (h : ∀ c ∈ ds, isDigit c = true)
    (hpos : ofDigits ds ≠ 0) :
    10 ^ (ds.dropWhile (· == '0')).length ≤ 10 * ofDigits (ds.dropWhile (· == '0')) := by
  rw [← ofDigits_dropWhile] at hpos
  have hnot := List.head?_dropWhile_not (· == '0') ds
  have hmem : ∀ c ∈ ds.dropWhile (· == '0'), isDigit c = true :=
    fun c hc => h c ((List.dropWhile_suffix _).subset hc)
  cases hrest : ds.dropWhile (· == '0') with
  | nil =>
    rw [hrest] at hpos
    exact absurd rfl hpos
  | cons c rest =>
    rw [hrest] at hnot hmem
    have hc : c ≠ '0' := by simpa using hnot
    have hvalue := digitValue_pos (hmem c List.mem_cons_self) hc
    have hmul := Nat.mul_le_mul_right (10 ^ rest.length) hvalue
    rw [ofDigits_cons, List.length_cons, Nat.pow_succ]
    omega

namespace Binary64

/-! ## Reading digits and a power of ten -/

/-- **A number with a power of ten is read as the nearest one**, if it is told how many digits it
has. -/
theorem isNearest_ofDecimal {n length : Nat} (power : Int) (hlow : n ≠ 0 → 10 ^ length ≤ 10 * n)
    (hhigh : n < 10 ^ length) :
    IsNearest ((n : ℚ) * 10 ^ power) (ofDecimal false n length power) := by
  rw [ofDecimal]
  split
  · rename_i hzero
    rw [beq_iff_eq.mp hzero, Nat.cast_zero, zero_mul]
    exact isNearest_zero (by positivity)
  rename_i hzero
  have hlow' : (10 : ℚ) ^ length ≤ 10 * n := by exact_mod_cast hlow (by simpa using hzero)
  have hhigh' : (n : ℚ) < 10 ^ length := by exact_mod_cast hhigh
  split
  · -- more than 310 digits before the point
    rename_i hlarge
    apply isNearest_infinite
    calc (2 : ℚ) ^ (1024 : Int) ≤ 10 ^ (310 : Int) := by
          rw [zpow_ofNat, zpow_ofNat]
          exact_mod_cast (by decide +kernel : 2 ^ 1024 ≤ 10 ^ 310)
      _ ≤ 10 ^ (length - 1 + power : Int) := zpow_le_zpow_right₀ (by norm_num) (by omega)
      _ = 10 ^ length / 10 * 10 ^ power := by
          rw [zpow_add₀ (by norm_num), zpow_sub_one₀ (by norm_num), zpow_natCast]
          rfl
      _ ≤ n * 10 ^ power := by
          gcongr
          linarith
  split
  · -- more than 330 zeros after the point
    rename_i hsmall
    apply isNearest_zero
    calc (n : ℚ) * 10 ^ power < 10 ^ length * 10 ^ power := by gcongr
      _ = 10 ^ (length + power : Int) := by rw [zpow_add₀ (by norm_num), zpow_natCast]
      _ ≤ 10 ^ (-331 : Int) := zpow_le_zpow_right₀ (by norm_num) (by omega)
      _ ≤ 2 ^ (-1075 : Int) := by
          rw [zpow_neg, zpow_neg]
          gcongr
          rw [zpow_ofNat, zpow_ofNat]
          exact_mod_cast (by decide +kernel : 2 ^ 1075 ≤ 10 ^ 331)
  split
  · rename_i hpower
    obtain ⟨p, rfl⟩ := Int.eq_ofNat_of_zero_le hpower
    have hratio := isNearest_ofRatio (n * Nat.pow 10 p) Nat.one_pos
    simpa using hratio
  · rename_i hpower
    obtain ⟨p, hp⟩ := Int.eq_ofNat_of_zero_le (by omega : 0 ≤ -power)
    have hneg : power = -(p : Int) := by omega
    have hratio := isNearest_ofRatio n (Nat.pow_pos (by decide) : 0 < Nat.pow 10 p)
    rw [hneg, zpow_neg, zpow_natCast]
    simpa [div_eq_mul_inv] using hratio

/-- How a power of ten is written behind digits: not at all, or as a letter and a whole number. -/
inductive IsPower : Int → List Char → Prop where
  | none : IsPower 0 []
  | plain {mark : Char} {ds : List Char} (hmark : mark = 'e' ∨ mark = 'E') (hsome : ds ≠ [])
      (hdigits : ∀ d ∈ ds, isDigit d = true) : IsPower (Number.ofDigits ds) (mark :: ds)
  | plus {mark : Char} {ds : List Char} (hmark : mark = 'e' ∨ mark = 'E') (hsome : ds ≠ [])
      (hdigits : ∀ d ∈ ds, isDigit d = true) : IsPower (Number.ofDigits ds) (mark :: '+' :: ds)
  | minus {mark : Char} {ds : List Char} (hmark : mark = 'e' ∨ mark = 'E') (hsome : ds ≠ [])
      (hdigits : ∀ d ∈ ds, isDigit d = true) : IsPower (-Number.ofDigits ds) (mark :: '-' :: ds)

/-- A letter in capitals or not. -/
theorem lowerLetter_eq_e_iff {c : Char} : lowerLetter c = 'e' ↔ c = 'e' ∨ c = 'E' := by
  constructor
  · intro h
    rw [lowerLetter] at h
    split at h
    · rename_i hcapital
      simp only [Bool.and_eq_true, decide_eq_true_eq] at hcapital
      have every : ∀ n < 91, 65 ≤ n → Char.ofNat (n + 32) = 'e' → n = 69 := by decide
      exact .inr (Char.toNat_inj.mp (every c.toNat (Nat.lt_succ_of_le hcapital.2) hcapital.1 h))
    · exact .inl h
  · rintro (rfl | rfl) <;> decide

/-- A power of ten is read as it is written. -/
theorem power?_of_isPower {p : Int} {cs : List Char} (h : IsPower p cs) : power? cs = some p := by
  have hread {mark : Char} {ds : List Char} (hmark : mark = 'e' ∨ mark = 'E') (hsome : ds ≠ [])
      (hdigits : ∀ d ∈ ds, isDigit d = true) :
      lowerLetter mark = 'e' ∧ (ds.isEmpty || !ds.all isDigit) = false := by
    refine ⟨lowerLetter_eq_e_iff.mpr hmark, ?_⟩
    rw [List.isEmpty_eq_false_iff.mpr hsome, List.all_eq_true.mpr hdigits]
    rfl
  cases h with
  | none => rfl
  | @plain mark ds hmark hsome hdigits =>
    obtain ⟨hletter, hds⟩ := hread hmark hsome hdigits
    -- digits do not begin with a sign
    have hsign {c : Char} {rest : List Char} (hc : isDigit c = false) : ds ≠ c :: rest := by
      rintro rfl
      rw [hdigits c List.mem_cons_self] at hc
      cases hc
    rw [power?]
    · simp [hletter, hds]
    · exact fun rest => hsign (by decide)
    · exact fun rest => hsign (by decide)
  | plus hmark hsome hdigits =>
    obtain ⟨hletter, hds⟩ := hread hmark hsome hdigits
    simp [power?, hletter, hds]
  | minus hmark hsome hdigits =>
    obtain ⟨hletter, hds⟩ := hread hmark hsome hdigits
    simp [power?, hletter, hds]

/-- Nothing else is read as one. -/
theorem isPower_of_power? {p : Int} {cs : List Char} (h : power? cs = some p) : IsPower p cs := by
  rw [power?.eq_def] at h
  split at h
  · cases h
    exact .none
  · rename_i mark cs
    split at h
    · cases h
    rename_i hletter
    have hmark : mark = 'e' ∨ mark = 'E' := lowerLetter_eq_e_iff.mp (by simpa using hletter)
    split at h
    rename_i sign ds hsign
    split at h
    · cases h
    rename_i hdigits
    rw [Bool.not_eq_true, Bool.or_eq_false_iff, List.isEmpty_eq_false_iff, Bool.not_eq_false',
      List.all_eq_true] at hdigits
    obtain ⟨hsome, hdigits⟩ := hdigits
    cases h
    split at hsign
    · cases hsign
      rw [neg_one_mul]
      exact .minus hmark hsome hdigits
    · cases hsign
      rw [one_mul]
      exact .plus hmark hsome hdigits
    · cases hsign
      rw [one_mul]
      exact .plain hmark hsome hdigits

/-- A decimal number without a sign, as it is written: digits before and after the point, and a
power of ten. -/
structure Decimal where
  whole : List Char
  fraction : List Char
  power : Int
  some : whole ++ fraction ≠ []
  digits : ∀ c ∈ whole ++ fraction, isDigit c = true

namespace Decimal

/-- The value of a decimal number. -/
def value (d : Decimal) : ℚ :=
  Number.ofDigits (d.whole ++ d.fraction) * 10 ^ (d.power - d.fraction.length)

/-- How a decimal number is written. The point may be missing if no digit follows it. -/
inductive IsText (d : Decimal) : List Char → Prop where
  | whole {exponent : List Char} (hnone : d.fraction = []) (hpower : IsPower d.power exponent) :
      IsText d (d.whole ++ exponent)
  | point {exponent : List Char} (hpower : IsPower d.power exponent) :
      IsText d (d.whole ++ '.' :: (d.fraction ++ exponent))

/-- The floating-point number as which a decimal number is read. -/
def number (d : Decimal) (negative : Bool) : Binary64 :=
  ofDigits negative d.whole d.fraction d.power

/-- **A decimal number is read as the nearest floating-point number.** -/
theorem isNearest_number (d : Decimal) : IsNearest d.value (d.number false) := by
  have hdigits : ∀ c ∈ (d.whole ++ d.fraction).dropWhile (· == '0'), isDigit c = true :=
    fun c hc => d.digits c ((List.dropWhile_suffix _).subset hc)
  have hnearest := isNearest_ofDecimal (d.power - d.fraction.length)
    (fun hpos => le_ofDigits_dropWhile d.digits (by rwa [ofDigits_dropWhile] at hpos))
    (ofDigits_lt hdigits)
  simpa only [value, number, ofDigits, ofDigits_dropWhile] using hnearest

/-- A text of a decimal number begins with a digit or a point. -/
theorem IsText.exists_cons {d : Decimal} {cs : List Char} (h : d.IsText cs) :
    ∃ c rest, cs = c :: rest ∧ (isDigit c = true ∨ c = '.') := by
  cases hwhole : d.whole with
  | cons c ds =>
    have hc : isDigit c = true := d.digits c (by simp [hwhole])
    cases h with
    | whole => exact ⟨c, _, by rw [hwhole]; rfl, .inl hc⟩
    | point => exact ⟨c, _, by rw [hwhole]; rfl, .inl hc⟩
  | nil =>
    cases h with
    | whole hnone => exact absurd (by rw [hwhole, hnone]; rfl) d.some
    | point => exact ⟨'.', _, by rw [hwhole]; rfl, .inr rfl⟩

end Decimal

/-- A number with a power of ten is read as a number of the format. -/
theorem inFormat_ofDecimal (negative : Bool) (n length : Nat) (power : Int) :
    (ofDecimal negative n length power).InFormat := by
  rw [ofDecimal]
  split
  · exact ⟨by norm_num, le_rfl, by decide⟩
  split
  · trivial
  split
  · exact ⟨by norm_num, le_rfl, by decide⟩
  split
  · exact inFormat_ofRatio negative _ Nat.one_pos
  · exact inFormat_ofRatio negative _ (Nat.pow_pos (by decide))

/-- And as one of the given sign. -/
theorem sign?_ofDecimal (negative : Bool) (n length : Nat) (power : Int) :
    (ofDecimal negative n length power).sign? = some negative := by
  rw [ofDecimal]
  split
  · rfl
  split
  · rfl
  split
  · rfl
  split
  · exact sign?_ofRatio negative _ Nat.one_pos
  · exact sign?_ofRatio negative _ (Nat.pow_pos (by decide))

/-! ## Reading decimal texts -/

/-- A power of ten does not begin with a digit or a point. -/
theorem IsPower.head? {p : Int} {cs : List Char} (h : IsPower p cs) :
    ∀ c ∈ cs.head?, isDigit c = false ∧ c ≠ '.' := by
  have hmark {mark : Char} (h : mark = 'e' ∨ mark = 'E') : isDigit mark = false ∧ mark ≠ '.' := by
    rcases h with rfl | rfl <;> exact ⟨by decide, by decide⟩
  intro c hc
  cases h with
  | none => cases hc
  | plain h | plus h | minus h =>
    cases hc
    exact hmark h

/-- What begins with a digit or a point is no name. -/
theorem not_isName {c k : Char} (hc : isDigit c = true ∨ c = '.')
    (hk : isDigit k = false ∧ k ≠ '.') (cs ks : List Char) :
    (String.ofList ((c :: cs).map lowerLetter) == String.ofList (k :: ks)) = false := by
  have hlower : lowerLetter c = c := by
    have h9 : '9'.toNat = 57 := rfl
    have hA : 'A'.toNat = 65 := rfl
    have hsmall : ¬ 'A'.toNat ≤ c.toNat := by
      rcases hc with hc | rfl
      · simp only [isDigit, Bool.and_eq_true, decide_eq_true_eq] at hc
        omega
      · decide
    rw [lowerLetter, decide_eq_false hsmall, Bool.false_and, if_neg Bool.false_ne_true]
  apply beq_false_of_ne
  intro heq
  rw [String.ofList_inj, List.map_cons, hlower] at heq
  obtain ⟨rfl, -⟩ := List.cons.inj heq
  rcases hc with hc | hc
  · rw [hk.1] at hc
    cases hc
  · exact hk.2 hc

/-- **A decimal text is read as its number.** -/
theorem ofUnsigned?_of_isText {d : Decimal} {cs : List Char} (h : d.IsText cs) (negative : Bool) :
    ofUnsigned? negative cs = some (d.number negative) := by
  obtain ⟨c, tail, hcons, hc⟩ := h.exists_cons
  have hinf := not_isName hc (k := 'i') ⟨by decide, by decide⟩ tail ['n', 'f']
  have hinfinity := not_isName hc (k := 'i') ⟨by decide, by decide⟩ tail
    ['n', 'f', 'i', 'n', 'i', 't', 'y']
  have hnan := not_isName hc (k := 'n') ⟨by decide, by decide⟩ tail ['a', 'n']
  rw [← hcons] at hinf hinfinity hnan
  have hwhole : ∀ c ∈ d.whole, isDigit c = true :=
    fun c hc => d.digits c (List.mem_append_left _ hc)
  have hfraction : ∀ c ∈ d.fraction, isDigit c = true :=
    fun c hc => d.digits c (List.mem_append_right _ hc)
  have hsome : (d.whole.isEmpty && d.fraction.isEmpty) = false := by
    have := d.some
    simp_all
  rw [ofUnsigned?, show "inf" = String.ofList ['i', 'n', 'f'] from rfl, hinf,
    show "infinity" = String.ofList ['i', 'n', 'f', 'i', 'n', 'i', 't', 'y'] from rfl, hinfinity,
    show "nan" = String.ofList ['n', 'a', 'n'] from rfl, hnan]
  simp only [Bool.or_self, Bool.false_eq_true, if_false]
  cases h with
  | @whole exponent hnone hpower =>
    obtain ⟨htake, hdrop⟩ := Json.takeWhile_isDigit hwhole fun c hc => (hpower.head? c hc).1
    rw [htake, hdrop]
    split
    · exact absurd rfl (hpower.head? '.' rfl).2
    · rw [hnone] at hsome
      rw [hsome, power?_of_isPower hpower, Decimal.number, hnone]
      rfl
  | @point exponent hpower =>
    have hpoint : ∀ c ∈ ('.' :: (d.fraction ++ exponent)).head?, isDigit c = false := by
      rintro c ⟨⟩
      decide
    obtain ⟨htake, hdrop⟩ := Json.takeWhile_isDigit hwhole hpoint
    obtain ⟨htake', hdrop'⟩ := Json.takeWhile_isDigit hfraction fun c hc => (hpower.head? c hc).1
    rw [htake, hdrop]
    simp only [htake', hdrop', hsome, power?_of_isPower hpower]
    rfl

/-- Beside decimal texts, only names are read. -/
theorem exists_isText_of_ofUnsigned? {negative : Bool} {cs : List Char} {x : Binary64}
    (h : ofUnsigned? negative cs = some x) :
    x = nan ∨ x = infinite negative ∨ ∃ d : Decimal, d.IsText cs ∧ x = d.number negative := by
  have hall (ds : List Char) : ∀ c ∈ ds.takeWhile isDigit, isDigit c = true :=
    List.all_eq_true.mp List.all_takeWhile
  have hsplit : cs.takeWhile isDigit ++ cs.dropWhile isDigit = cs := List.takeWhile_append_dropWhile
  rw [ofUnsigned?] at h
  split at h
  · cases h
    exact .inr (.inl rfl)
  split at h
  · cases h
    exact .inl rfl
  refine .inr (.inr ?_)
  dsimp only at h
  split at h
  · -- digits, a point and perhaps more digits
    rename_i after hdrop
    split at h
    · cases h
    rename_i hsome
    obtain ⟨power, hpower, rfl⟩ := Option.map_eq_some_iff.mp h
    let d : Decimal := {
      whole := cs.takeWhile isDigit
      fraction := after.takeWhile isDigit
      power
      some := by simpa using hsome
      digits := fun c hc => (List.mem_append.mp hc).elim (hall cs c) (hall after c) }
    have htext := Decimal.IsText.point (d := d) (isPower_of_power? hpower)
    refine ⟨d, ?_, rfl⟩
    rwa [List.takeWhile_append_dropWhile, ← hdrop, hsplit] at htext
  · -- digits alone
    rename_i hdrop
    split at h
    · cases h
    rename_i hsome
    obtain ⟨power, hpower, rfl⟩ := Option.map_eq_some_iff.mp h
    let d : Decimal := {
      whole := cs.takeWhile isDigit
      fraction := []
      power
      some := by simpa using hsome
      digits := fun c hc => hall cs c (by simpa using hc) }
    have htext := Decimal.IsText.whole (d := d) rfl (isPower_of_power? hpower)
    refine ⟨d, ?_, rfl⟩
    rwa [hsplit] at htext

/-! ## Signs -/

/-- A decimal text, which may have a sign, and its value. -/
inductive IsDecimal : ℚ → List Char → Prop where
  | plain {d : Decimal} {cs : List Char} (htext : d.IsText cs) : IsDecimal d.value cs
  | plus {d : Decimal} {cs : List Char} (htext : d.IsText cs) : IsDecimal d.value ('+' :: cs)
  | minus {d : Decimal} {cs : List Char} (htext : d.IsText cs) : IsDecimal (-d.value) ('-' :: cs)

/-- A decimal number without a sign is not negative. -/
theorem Decimal.value_nonneg (d : Decimal) : 0 ≤ d.value := by
  rw [value]
  positivity

/-- What is read without a sign is a number of the format, with the sign that it is given. -/
theorem inFormat_of_ofUnsigned? {negative : Bool} {cs : List Char} {x : Binary64}
    (h : ofUnsigned? negative cs = some x) : x.InFormat := by
  rcases exists_isText_of_ofUnsigned? h with rfl | rfl | ⟨d, -, rfl⟩
  · trivial
  · trivial
  · exact inFormat_ofDecimal _ _ _ _

/-- Every text is read as a number of the format. -/
theorem inFormat_of_ofChars? {cs : List Char} {x : Binary64} (h : ofChars? cs = some x) :
    x.InFormat := by
  rw [ofChars?.eq_def] at h
  split at h <;> exact inFormat_of_ofUnsigned? h

/-- **A text of a positive decimal number is read as the nearest floating-point number.** -/
theorem exists_ofChars?_of_isDecimal {w : ℚ} {cs : List Char} (h : IsDecimal w cs) (hw : 0 < w) :
    ∃ x, ofChars? cs = some x ∧ IsNearest w x := by
  cases h with
  | @plain d _ htext =>
    obtain ⟨c, rest, rfl, hc⟩ := htext.exists_cons
    have hsign {k : Char} (hk : isDigit k = false ∧ k ≠ '.') : c ≠ k := by
      rintro rfl
      rw [hk.1] at hc
      exact hc.elim (by simp) hk.2
    refine ⟨d.number false, ?_, d.isNearest_number⟩
    rw [ofChars?]
    · exact ofUnsigned?_of_isText htext false
    · exact fun rest heq => hsign ⟨by decide, by decide⟩ (List.cons.inj heq).1
    · exact fun rest heq => hsign ⟨by decide, by decide⟩ (List.cons.inj heq).1
  | @plus d _ htext =>
    exact ⟨d.number false, ofUnsigned?_of_isText htext false, d.isNearest_number⟩
  | @minus d _ htext =>
    have := d.value_nonneg
    exact absurd hw (by linarith)

/-- **A positive number is read only from the text of a decimal number**, to which it is nearest. -/
theorem exists_isDecimal_of_ofChars? {cs : List Char} {x : Binary64} {v : ℚ}
    (h : ofChars? cs = some x) (hv : x.value? = some v) (hpos : 0 < v) :
    ∃ w, IsDecimal w cs ∧ IsNearest w x := by
  obtain ⟨m, e, rfl, -, -⟩ := eq_finite_of_pos hv hpos
  have hunsigned {negative : Bool} {ds : List Char}
      (h : ofUnsigned? negative ds = some (finite false m e)) :
      negative = false ∧ ∃ d : Decimal, d.IsText ds ∧ finite false m e = d.number false := by
    rcases exists_isText_of_ofUnsigned? h with heq | heq | ⟨d, htext, heq⟩
    · cases heq
    · cases heq
    · have hsign : (d.number negative).sign? = some negative := sign?_ofDecimal _ _ _ _
      rw [← heq] at hsign
      cases hsign
      exact ⟨rfl, d, htext, heq⟩
  rw [ofChars?.eq_def] at h
  split at h
  · obtain ⟨hnegative, -⟩ := hunsigned h
    cases hnegative
  · obtain ⟨-, d, htext, heq⟩ := hunsigned h
    exact ⟨d.value, .plus htext, heq ▸ d.isNearest_number⟩
  · obtain ⟨-, d, htext, heq⟩ := hunsigned h
    exact ⟨d.value, .plain htext, heq ▸ d.isNearest_number⟩

end Binary64

end Postmortem.Number
