import Postmortem.Json.Reader

/-!
# Numbers

Reading a written number gives it again, unless it is continued by what follows: a digit, a point or
the sign of a power. And a number with something behind it is read alike if more is put behind that.
-/

namespace Postmortem.Json

open Postmortem.Number

/-- What may follow a number without continuing it. -/
def NumberEnd (rest : List Char) : Prop :=
  ∀ c ∈ rest.head?, isDigit c = false ∧ c ≠ '.' ∧ c ≠ 'e' ∧ c ≠ 'E'

/-- Nothing does not. -/
theorem numberEnd_nil : NumberEnd [] := by
  intro c hc
  cases hc

/-! ## Digits -/

/-- Digits are read up to the first character that is none. -/
theorem takeWhile_isDigit {ds rest : List Char} (hds : ∀ c ∈ ds, isDigit c = true)
    (hrest : ∀ c ∈ rest.head?, isDigit c = false) :
    (ds ++ rest).takeWhile isDigit = ds ∧ (ds ++ rest).dropWhile isDigit = rest := by
  have hnone : rest.takeWhile isDigit = [] ∧ rest.dropWhile isDigit = rest := by
    cases rest with
    | nil => exact ⟨rfl, rfl⟩
    | cons c rest =>
      have hc := hrest c rfl
      simp [hc]
  rw [List.takeWhile_append_of_pos hds, List.dropWhile_append_of_pos hds, hnone.1, hnone.2,
    List.append_nil]
  exact ⟨rfl, rfl⟩

/-- There is always a digit. -/
theorem digits_ne_nil (n : Nat) : digits n ≠ [] := by
  rw [digits]
  split <;> simp

/-- The first digit of a number is zero only if the number is. -/
theorem eq_zero_of_head?_digits {n : Nat} (h : (digits n).head? = some '0') : n = 0 := by
  induction n using Nat.strongRecOn with
  | ind n ih =>
    rw [digits] at h
    split at h
    · rename_i hlt
      rw [List.head?_singleton, Option.some_inj] at h
      have hvalue := digitValue_digitChar n
      rw [h] at hvalue
      have hzero : digitValue '0' = 0 := rfl
      omega
    · rename_i hge
      cases hds : digits (n / 10) with
      | nil => exact absurd hds (digits_ne_nil _)
      | cons d ds =>
        rw [hds] at h
        have hzero := ih (n / 10) (by omega) (by rw [hds]; exact h)
        omega

/-- A number begins with a zero only if that is all of it. -/
theorem digits_zero_cons {n : Nat} {ds : List Char} (h : digits n = '0' :: ds) : ds = [] := by
  have hzero : n = 0 := eq_zero_of_head?_digits (by rw [h]; rfl)
  rw [hzero, digits] at h
  exact (List.cons.inj h).2.symm

/-- The digits after a point are read back. -/
theorem map_digitValue (fs : List (Fin 10)) :
    (fs.map fun d => digitChar d.val).map (fun c => Fin.ofNat 10 (digitValue c)) = fs := by
  rw [List.map_map]
  have hsame : ∀ d ∈ fs,
      ((fun c => Fin.ofNat 10 (digitValue c)) ∘ fun d : Fin 10 => digitChar d.val) d = d := by
    intro d _
    apply Fin.ext
    simp only [Function.comp, digitValue_digitChar, Fin.ofNat, Nat.mod_mod]
    exact Nat.mod_eq_of_lt d.isLt
  rw [List.map_congr_left hsame, List.map_id']

/-! ## Reading what was written -/

/-- What is read of a number that is written to its end. -/
theorem finished_eq (n : Numeral) (rest : List Char) :
    finished n rest = ((number n).draft, some rest) := by
  rw [draft]
  rfl

/-- The power of a number is read back. -/
theorem readPower_chars (n : Numeral) {rest : List Char} (h : NumberEnd rest) :
    readPower n.negative n.whole n.fraction
        ((n.exponent.map Numeral.exponentChars).getD [] ++ rest) =
      ((number n).draft, some rest) := by
  obtain ⟨negative, whole, fraction, exponent⟩ := n
  rw [← finished_eq]
  cases exponent with
  | none =>
    show readPower negative whole fraction rest = _
    cases rest with
    | nil => rfl
    | cons c rest =>
      obtain ⟨-, -, he, hE⟩ := h c rfl
      rw [readPower.eq_def]
      exact if_neg (by simp [he, hE])
  | some e =>
    have hspan := takeWhile_isDigit (fun c hc => isDigit_of_mem_digits (n := e.natAbs) hc)
      (fun c hc => (h c hc).1)
    have hread (sign : Int) (hsign : sign * e.natAbs = e) :
        readExponent negative whole fraction sign (digits e.natAbs ++ rest) =
          finished ⟨negative, whole, fraction, some e⟩ rest := by
      rw [readExponent]
      simp only [hspan.1, hspan.2, ofDigits_digits, hsign]
      rw [if_neg]
      simpa using digits_ne_nil e.natAbs
    show readPower negative whole fraction (Numeral.exponentChars e ++ rest) = _
    rw [Numeral.exponentChars]
    by_cases hneg : e < 0
    · rw [if_pos hneg]
      exact hread (-1) (by omega)
    · -- without a sign the first character is a digit, so it is not taken for one
      have hplain (c : Char) (hc : isDigit c = false) :
          ∀ cs, digits e.natAbs ++ rest = c :: cs → False := by
        intro cs heq
        cases hds : digits e.natAbs with
        | nil => exact absurd hds (digits_ne_nil _)
        | cons d ds =>
          have hd : isDigit d = true := isDigit_of_mem_digits (hds ▸ List.mem_cons_self)
          rw [hds] at heq
          rw [(List.cons.inj heq).1, hc] at hd
          cases hd
      rw [if_neg hneg, ← hread 1 (by omega), List.cons_append, readPower, if_pos (by decide)]
      · exact hplain '-' (by decide)
      · exact hplain '+' (by decide)

/-- What follows the sign of a number. -/
def Numeral.unsignedChars (n : Numeral) : List Char :=
  digits n.whole ++ ((if n.fraction.isEmpty then [] else
    '.' :: n.fraction.map fun d => digitChar d.val) ++
      (n.exponent.map Numeral.exponentChars).getD [])

/-- A number is written as its sign, if it has one, and the rest. -/
theorem Numeral.chars_eq (n : Numeral) :
    n.chars = if n.negative then '-' :: n.unsignedChars else n.unsignedChars := by
  rw [chars, unsignedChars]
  cases n.negative <;> simp

/-- A number is written with digits, signs, a point and the mark of a power. -/
theorem isDigit_or_mem_of_mem_numeral {n : Numeral} {c : Char} (h : c ∈ n.chars) :
    isDigit c = true ∨ c ∈ ['-', '.', 'e'] := by
  rw [Numeral.chars] at h
  simp only [List.mem_append] at h
  rcases h with ((hsign | hwhole) | hfraction) | hexponent
  · split at hsign
    · exact .inr (by simp [List.mem_singleton.mp hsign])
    · exact absurd hsign List.not_mem_nil
  · exact .inl (isDigit_of_mem_digits hwhole)
  · split at hfraction
    · exact absurd hfraction List.not_mem_nil
    · rcases List.mem_cons.mp hfraction with rfl | hdigit
      · exact .inr (by simp)
      · obtain ⟨d, -, rfl⟩ := List.mem_map.mp hdigit
        exact .inl (isDigit_digitChar d.val)
  · cases he : n.exponent with
    | none =>
      rw [he] at hexponent
      exact absurd hexponent List.not_mem_nil
    | some e =>
      rw [he, Option.map_some, Option.getD_some, Numeral.exponentChars] at hexponent
      rcases List.mem_cons.mp hexponent with rfl | hpower
      · exact .inr (by simp)
      · split at hpower
        · rcases List.mem_cons.mp hpower with rfl | hdigit
          · exact .inr (by simp)
          · exact .inl (isDigit_of_mem_digits hdigit)
        · exact .inl (isDigit_of_mem_digits hpower)

/-- A number that begins with the digits of its whole part. -/
private theorem readNumber_digits (negative : Bool) (whole : Nat) {rest : List Char}
    (h : ∀ c ∈ rest.head?, isDigit c = false) :
    readNumber negative (digits whole ++ rest) = readDecimals negative whole rest := by
  have hspan := takeWhile_isDigit (fun c hc => isDigit_of_mem_digits (n := whole) hc) h
  rw [readNumber]
  simp only [hspan.1, hspan.2]
  split
  · rename_i hnil
    exact absurd hnil (digits_ne_nil _)
  · rename_i hzero
    exact absurd (digits_zero_cons hzero) (List.cons_ne_nil _ _)
  · rw [ofDigits_digits]

/-- The sign of a power is no digit. -/
private theorem head?_exponent (n : Numeral) {rest : List Char} (h : NumberEnd rest) :
    ∀ c ∈ ((n.exponent.map Numeral.exponentChars).getD [] ++ rest).head?,
      isDigit c = false ∧ c ≠ '.' := by
  cases n.exponent with
  | none =>
    intro c hc
    obtain ⟨hdigit, hpoint, -⟩ := h c hc
    exact ⟨hdigit, hpoint⟩
  | some e =>
    intro c hc
    have hce : c = 'e' := by
      rw [Option.map_some, Option.getD_some, Numeral.exponentChars] at hc
      exact (Option.some_inj.mp hc).symm
    rw [hce]
    decide

/-- **Reading a written number gives it again.** -/
theorem readNumber_chars (n : Numeral) {rest : List Char} (h : NumberEnd rest) :
    readNumber n.negative (n.unsignedChars ++ rest) = ((number n).draft, some rest) := by
  have hexponent := head?_exponent n h
  rw [Numeral.unsignedChars, List.append_assoc, List.append_assoc]
  by_cases hfraction : n.fraction = []
  · rw [hfraction, List.isEmpty_nil, if_pos rfl, List.nil_append,
      readNumber_digits _ _ fun c hc => (hexponent c hc).1, ← readPower_chars n h, hfraction,
      readDecimals]
    intro cs heq
    exact (hexponent '.' (by rw [heq]; rfl)).2 rfl
  · have hdigits : ∀ c ∈ n.fraction.map fun d => digitChar d.val, isDigit c = true := by
      intro c hc
      obtain ⟨d, -, rfl⟩ := List.mem_map.mp hc
      exact isDigit_digitChar d.val
    have hspan := takeWhile_isDigit hdigits fun c hc => (hexponent c hc).1
    -- the point ends the whole part, and what follows the fraction ends that
    rw [if_neg (by simpa using hfraction), List.cons_append,
      readNumber_digits _ _ (by simp; decide), readDecimals, readFraction]
    simp only [hspan.1, hspan.2, map_digitValue]
    rw [if_neg (by simpa using hfraction)]
    exact readPower_chars n h

/-! ## Reading on -/

/-- Digits with something behind them stay what they are. -/
theorem takeWhile_isDigit_append {cs : List Char} (h : cs.dropWhile isDigit ≠ [])
    (more : List Char) :
    (cs ++ more).takeWhile isDigit = cs.takeWhile isDigit ∧
      (cs ++ more).dropWhile isDigit = cs.dropWhile isDigit ++ more := by
  have hlength : (cs.takeWhile isDigit).length ≠ cs.length := by
    intro heq
    have hsplit := congrArg List.length (List.takeWhile_append_dropWhile (p := isDigit) (l := cs))
    rw [List.length_append, heq] at hsplit
    exact h (List.length_eq_zero_iff.mp (by omega))
  rw [List.takeWhile_append, if_neg hlength, List.dropWhile_append, if_neg (by simpa using h)]
  exact ⟨rfl, rfl⟩

/-- What follows a number that is written to its end. -/
private theorem finished_append {n : Numeral} {cs rest : List Char} {d : Draft}
    (h : finished n cs = (d, some rest)) (more : List Char) :
    finished n (cs ++ more) = (d, some (rest ++ more)) := by
  obtain ⟨rfl, hrest⟩ := Prod.mk.inj h
  rw [finished, Option.some_inj.mp hrest]

/-- The digits of a power with something behind them. -/
private theorem readExponent_append {negative : Bool} {whole : Nat} {fraction : List (Fin 10)}
    {sign : Int} {cs rest : List Char} {d : Draft}
    (h : readExponent negative whole fraction sign cs = (d, some rest)) (hrest : rest ≠ [])
    (more : List Char) :
    readExponent negative whole fraction sign (cs ++ more) = (d, some (rest ++ more)) := by
  rw [readExponent] at h ⊢
  split at h
  · cases h
  · rename_i hdigits
    have hdrop : cs.dropWhile isDigit ≠ [] := by
      rw [Option.some_inj.mp (Prod.mk.inj h).2]
      exact hrest
    obtain ⟨htake, hdrop⟩ := takeWhile_isDigit_append hdrop more
    simp only [htake, hdrop]
    rw [if_neg hdigits]
    exact finished_append h more

/-- A power, or none, with something behind it. -/
private theorem readPower_append {negative : Bool} {whole : Nat} {fraction : List (Fin 10)}
    {cs rest : List Char} {d : Draft} (h : readPower negative whole fraction cs = (d, some rest))
    (hrest : rest ≠ []) (more : List Char) :
    readPower negative whole fraction (cs ++ more) = (d, some (rest ++ more)) := by
  cases cs with
  | nil => exact absurd (Option.some_inj.mp (Prod.mk.inj h).2).symm hrest
  | cons c cs =>
    rw [readPower.eq_def] at h ⊢
    simp only [List.cons_append] at h ⊢
    split at h
    · rename_i hpower
      rw [if_pos hpower]
      cases cs with
      | nil => cases h
      | cons sign cs =>
        -- the sign decides, and it is the same character
        rw [List.cons_append]
        by_cases hminus : sign = '-'
        · subst hminus
          exact readExponent_append h hrest more
        by_cases hplus : sign = '+'
        · subst hplus
          exact readExponent_append h hrest more
        · have hread : readExponent negative whole fraction 1 (sign :: cs) = (d, some rest) := by
            split at h
            · rename_i heq
              exact absurd (List.cons.inj heq).1 hminus
            · rename_i heq
              exact absurd (List.cons.inj heq).1 hplus
            · exact h
          have hmore := readExponent_append hread hrest more
          split
          · rename_i heq
            exact absurd (List.cons.inj heq).1 hminus
          · rename_i heq
            exact absurd (List.cons.inj heq).1 hplus
          · exact hmore
    · rename_i hpower
      rw [if_neg hpower]
      exact finished_append h more

/-- The digits after a point with something behind them. -/
private theorem readFraction_append {negative : Bool} {whole : Nat} {cs rest : List Char}
    {d : Draft} (h : readFraction negative whole cs = (d, some rest)) (hrest : rest ≠ [])
    (more : List Char) :
    readFraction negative whole (cs ++ more) = (d, some (rest ++ more)) := by
  rw [readFraction] at h ⊢
  split at h
  · cases h
  · rename_i hdigits
    have hdrop : cs.dropWhile isDigit ≠ [] := by
      intro hnil
      rw [hnil] at h
      exact hrest (Option.some_inj.mp (Prod.mk.inj h).2).symm
    obtain ⟨htake, hdrop⟩ := takeWhile_isDigit_append hdrop more
    rw [htake, hdrop, if_neg hdigits]
    exact readPower_append h hrest more

/-- What follows the whole part with something behind it. -/
private theorem readDecimals_append {negative : Bool} {whole : Nat} {cs rest : List Char}
    {d : Draft} (h : readDecimals negative whole cs = (d, some rest)) (hrest : rest ≠ [])
    (more : List Char) :
    readDecimals negative whole (cs ++ more) = (d, some (rest ++ more)) := by
  cases cs with
  | nil => exact absurd (Option.some_inj.mp (Prod.mk.inj h).2).symm hrest
  | cons c cs =>
    by_cases hpoint : c = '.'
    · subst hpoint
      exact readFraction_append h hrest more
    · have hother (cs : List Char) :
          readDecimals negative whole (c :: cs) = readPower negative whole [] (c :: cs) := by
        rw [readDecimals]
        rintro cs' heq
        exact hpoint (List.cons.inj heq).1
      rw [hother] at h
      rw [List.cons_append, hother, ← List.cons_append]
      exact readPower_append h hrest more

/-- **A number with something behind it is read alike** if more follows. -/
theorem readNumber_append {negative : Bool} {cs rest : List Char} {d : Draft}
    (h : readNumber negative cs = (d, some rest)) (hrest : rest ≠ []) (more : List Char) :
    readNumber negative (cs ++ more) = (d, some (rest ++ more)) := by
  -- at the very end of a text more digits could follow
  have hdrop : cs.dropWhile isDigit ≠ [] := by
    intro hnil
    rw [readNumber, hnil] at h
    split at h
    · cases h
    · cases h
    · exact hrest (Option.some_inj.mp (Prod.mk.inj h).2).symm
  obtain ⟨htake, hdrop⟩ := takeWhile_isDigit_append hdrop more
  rw [readNumber] at h ⊢
  rw [htake, hdrop]
  split at h
  · cases h
  · cases h
  · exact readDecimals_append h hrest more

end Postmortem.Json
