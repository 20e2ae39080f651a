import Postmortem.Json.Literal

/-!
# Texts between quotes

Reading a text that was written between quotes gives it again, whatever follows the closing quote.
And a text that has been read up to its closing quote is read alike if more is put behind.
-/

namespace Postmortem.Json.Literal

/-! ## Reading what was written -/

/-- A digit has its value. -/
theorem hexValue?_hexDigit : ∀ n < 16, hexValue? (hexDigit n) = some n := by
  decide

/-- A control is read from its code. -/
private theorem unitPiece_control {c : Char} (h : c.toNat < 0x20) (rest : List Char) :
    unitPiece ('0' :: '0' :: hexDigit (c.toNat / 16) :: hexDigit (c.toNat % 16) :: rest) =
      (.char c, rest) := by
  have hhigh := hexValue?_hexDigit (c.toNat / 16) (by omega)
  have hlow := hexValue?_hexDigit (c.toNat % 16) (by omega)
  have hzero : hexValue? '0' = some 0 := by decide
  have hunit : hexUnit ('0' :: '0' :: hexDigit (c.toNat / 16) :: hexDigit (c.toNat % 16) :: rest) =
      .ok (c.toNat, rest) := by
    have hvalue : ((0 * 16 + 0) * 16 + c.toNat / 16) * 16 + c.toNat % 16 = c.toNat := by omega
    simp only [hexUnit, hhigh, hlow, hzero, hvalue]
  have hpair : ¬ (decide (0xdc00 ≤ c.toNat) && decide (c.toNat ≤ 0xdfff)) = true := by
    simp
    omega
  have hsingle : (decide (c.toNat < 0xd800) || decide (0xdbff < c.toNat)) = true := by
    simp
    omega
  rw [unitPiece, hunit]
  simp only [if_neg hpair, if_pos hsingle, Char.ofNat_toNat]

/-- A character that stands for itself. -/
private theorem piece_plain {c : Char} (hquote : c ≠ '"') (hslash : c ≠ '\\') (rest : List Char) :
    piece (c :: rest) =
      if c.toNat < 0x20 then (.fault .malformed, []) else (.char c, rest) := by
  rw [piece.eq_def]
  split <;> simp_all

/-- A written character is the first piece, whatever follows. -/
theorem piece_escapeChar (c : Char) (rest : List Char) :
    piece (escapeChar c ++ rest) = (.char c, rest) := by
  rw [escapeChar]
  -- the characters with escapes of their own
  by_cases hquote : c = '"'
  · subst hquote; rfl
  by_cases hslash : c = '\\'
  · subst hslash; rfl
  by_cases hback : c = '\x08'
  · subst hback; rfl
  by_cases hform : c = '\x0c'
  · subst hform; rfl
  by_cases hfeed : c = '\n'
  · subst hfeed; rfl
  by_cases hreturn : c = '\r'
  · subst hreturn; rfl
  by_cases htab : c = '\t'
  · subst htab; rfl
  simp only [beq_iff_eq, hquote, hslash, hback, hform, hfeed, hreturn, htab, if_false]
  by_cases hcontrol : c.toNat < 0x20
  · rw [if_pos hcontrol]
    exact unitPiece_control hcontrol rest
  · rw [if_neg hcontrol, List.singleton_append, piece_plain hquote hslash, if_neg hcontrol]

/-- A written text is read up to its closing quote. -/
theorem scanFrom_literalTail (cs rest : List Char) {fuel : Nat} (hfuel : cs.length < fuel)
    (seen : List Char) :
    scanFrom fuel (.ok seen) (literalTail cs ++ rest) =
      ⟨.ok (seen.reverse ++ cs), .ok (), rest⟩ := by
  induction cs generalizing fuel seen with
  | nil =>
    cases fuel with
    | zero => exact absurd hfuel (Nat.not_lt_zero _)
    | succ fuel =>
      rw [List.append_nil]
      rfl
  | cons c cs ih =>
    cases fuel with
    | zero => exact absurd hfuel (Nat.not_lt_zero _)
    | succ fuel =>
      have hpiece : piece (literalTail (c :: cs) ++ rest) = (.char c, literalTail cs ++ rest) := by
        rw [literalTail, List.flatMap_cons, List.append_assoc, List.append_assoc, piece_escapeChar,
          literalTail, List.append_assoc]
      have hrest := ih (Nat.lt_of_succ_lt_succ hfuel) (c :: seen)
      rw [List.reverse_cons, List.append_assoc, List.singleton_append] at hrest
      rw [scanFrom, hpiece]
      exact hrest

/-- Escaping does not make a text shorter. -/
theorem length_le_literalTail (cs : List Char) : cs.length < (literalTail cs).length := by
  have hchar (c : Char) : 1 ≤ (escapeChar c).length := by
    rw [escapeChar]
    repeat' split
    all_goals simp
  rw [literalTail, List.length_append, List.length_singleton]
  induction cs with
  | nil => simp
  | cons c cs ih =>
    have := hchar c
    rw [List.flatMap_cons, List.length_append, List.length_cons]
    omega

/-- **Reading a written text gives it again.** -/
theorem scan_literalTail (s : String) (rest : List Char) :
    scan (literalTail s.toList ++ rest) = (Literal.ofString s, rest) := by
  have hfuel : s.toList.length < (literalTail s.toList ++ rest).length + 1 := by
    have := length_le_literalTail s.toList
    rw [List.length_append]
    omega
  have hlength : (literalTail s.toList ++ rest).length - rest.length =
      (literalTail s.toList).length := by
    rw [List.length_append]
    omega
  rw [scan, scanFrom_literalTail s.toList rest hfuel []]
  simp only [hlength, List.take_left', List.reverse_nil, List.nil_append]
  rw [Except.map, String.ofList_toList, ofString]

/-! ## Reading on -/

/-- Four digits are read alike if more follows. -/
theorem hexUnit_append {cs rest : List Char} {n : Nat} (h : hexUnit cs = .ok (n, rest))
    (more : List Char) : hexUnit (cs ++ more) = .ok (n, rest ++ more) := by
  rw [hexUnit.eq_def] at h
  split at h
  · rename_i a b c d tail
    split at h
    · rename_i ha hb hc hd
      cases h
      simp only [List.cons_append, hexUnit, ha, hb, hc, hd]
    · cases h
  · split at h <;> cases h

/-- So is what follows the first half of a pair. -/
theorem pairPiece_append {high : Nat} {cs rest : List Char} {p : Piece}
    (h : pairPiece high cs = (p, rest)) (hp : ∀ f, p ≠ .fault f) (more : List Char) :
    pairPiece high (cs ++ more) = (p, rest ++ more) := by
  rw [pairPiece.eq_def] at h
  split at h
  · exact absurd (Prod.mk.inj h).1.symm (hp _)
  · exact absurd (Prod.mk.inj h).1.symm (hp _)
  · rename_i tail
    cases hunit : hexUnit tail with
    | error f =>
      rw [hunit] at h
      exact absurd (Prod.mk.inj h).1.symm (hp f)
    | ok found =>
      obtain ⟨low, tail'⟩ := found
      rw [hunit] at h
      -- whether the second half fits to the first is told from its four digits
      simp only [List.cons_append, pairPiece, hexUnit_append hunit more]
      dsimp only at h
      split at h
      · rename_i hlow
        cases h
        rw [if_pos hlow]
      · rename_i hlow
        cases h
        rw [if_neg hlow]
        rfl
  · rename_i hnil hslash hpair
    cases h
    rw [pairPiece.eq_def]
    -- the end of the text was far enough away to tell that no second half follows
    split
    · rename_i heq
      exact absurd (List.append_eq_nil_iff.mp heq).1 hnil
    · rename_i heq
      obtain ⟨hcs, -⟩ | ⟨tail, hcs, htail⟩ := List.append_eq_cons_iff.mp heq
      · exact absurd hcs hnil
      · obtain ⟨rfl, -⟩ := List.append_eq_nil_iff.mp htail.symm
        exact absurd hcs hslash
    · rename_i heq
      obtain ⟨hcs, -⟩ | ⟨tail, hcs, htail⟩ := List.append_eq_cons_iff.mp heq
      · exact absurd hcs hnil
      · obtain ⟨rfl, -⟩ | ⟨tail', rfl, -⟩ := List.append_eq_cons_iff.mp htail.symm
        · exact absurd hcs hslash
        · exact (hpair tail' hcs).elim
    · rfl

/-- So is the piece that an escape begins. -/
theorem unitPiece_append {cs rest : List Char} {p : Piece} (h : unitPiece cs = (p, rest))
    (hp : ∀ f, p ≠ .fault f) (more : List Char) : unitPiece (cs ++ more) = (p, rest ++ more) := by
  rw [unitPiece] at h ⊢
  cases hunit : hexUnit cs with
  | error f =>
    rw [hunit] at h
    exact absurd (Prod.mk.inj h).1.symm (hp f)
  | ok found =>
    obtain ⟨high, tail⟩ := found
    rw [hunit] at h
    rw [hexUnit_append hunit more]
    dsimp only at h ⊢
    split at h
    · rename_i hhalf
      cases h
      rw [if_pos hhalf]
    · rename_i hhalf
      rw [if_neg hhalf]
      split at h
      · rename_i hsingle
        cases h
        rw [if_pos hsingle]
      · rename_i hsingle
        rw [if_neg hsingle]
        exact pairPiece_append h hp more

/-- So is any piece. -/
theorem piece_append {cs rest : List Char} {p : Piece} (h : piece cs = (p, rest))
    (hp : ∀ f, p ≠ .fault f) (more : List Char) : piece (cs ++ more) = (p, rest ++ more) := by
  cases cs with
  | nil => exact absurd (Prod.mk.inj h).1.symm (hp _)
  | cons c cs =>
    by_cases hquote : c = '"'
    · subst hquote
      cases h
      rfl
    by_cases hslash : c = '\\'
    · subst hslash
      cases cs with
      | nil => exact absurd (Prod.mk.inj h).1.symm (hp _)
      | cons e cs =>
        simp only [piece] at h
        simp only [List.cons_append, piece]
        split at h
        -- the escape with digits, the characters that no escape names, and single escapes
        case h_9 => exact unitPiece_append h hp more
        case h_10 => exact absurd (Prod.mk.inj h).1.symm (hp _)
        all_goals
          cases h
          rfl
    · rw [piece_plain hquote hslash] at h
      rw [List.cons_append, piece_plain hquote hslash]
      split at h
      · exact absurd (Prod.mk.inj h).1.symm (hp _)
      · rename_i hcontrol
        cases h
        rw [if_neg hcontrol]

/-- What was seen before does not matter for what follows, and a text with a closing quote is read
alike if more follows. -/
theorem scanFrom_append {fuel fuel' : Nat} (hfuel : fuel ≤ fuel') {seen : Except Fault (List Char)}
    {cs : List Char} (h : (scanFrom fuel seen cs).skipping = .ok ()) (more : List Char) :
    scanFrom fuel' seen (cs ++ more) =
      { scanFrom fuel seen cs with rest := (scanFrom fuel seen cs).rest ++ more } := by
  induction fuel generalizing fuel' seen cs with
  | zero => cases h
  | succ fuel ih =>
    obtain ⟨fuel', rfl⟩ : ∃ n, fuel' = n + 1 := ⟨fuel' - 1, by omega⟩
    have hle : fuel ≤ fuel' := Nat.le_of_succ_le_succ hfuel
    rw [scanFrom] at h ⊢
    rw [scanFrom]
    cases hpiece : piece cs with
    | mk p rest =>
      rw [hpiece] at h
      cases p with
      | fault f => cases h
      | char c =>
        rw [piece_append hpiece (by simp) more]
        exact ih hle h
      | half =>
        rw [piece_append hpiece (by simp) more]
        exact ih hle h
      | close => rw [piece_append hpiece (by simp) more]

/-- What follows four digits is shorter. -/
private theorem length_hexUnit {cs rest : List Char} {n : Nat} (h : hexUnit cs = .ok (n, rest)) :
    rest.length ≤ cs.length := by
  rw [hexUnit.eq_def] at h
  split at h
  · split at h
    · cases h
      simp only [List.length_cons]
      omega
    · cases h
  · split at h <;> cases h

/-- What follows a pair is shorter. -/
private theorem length_pairPiece (high : Nat) (cs : List Char) :
    (pairPiece high cs).2.length ≤ cs.length := by
  rw [pairPiece.eq_def]
  split
  · exact Nat.zero_le _
  · exact Nat.zero_le _
  · rename_i tail
    cases hunit : hexUnit tail with
    | error f => exact Nat.zero_le _
    | ok found =>
      obtain ⟨low, rest⟩ := found
      have hle := length_hexUnit hunit
      dsimp only
      split
      · simp only [List.length_cons]
        omega
      · exact Nat.le_refl _
  · exact Nat.le_refl _

/-- What follows a piece is shorter. -/
private theorem length_piece (cs : List Char) : (piece cs).2.length ≤ cs.length := by
  rw [piece.eq_def]
  split
  · exact Nat.zero_le _
  · simp
  · exact Nat.zero_le _
  · rename_i e rest
    split
    case h_9 =>
      rw [unitPiece]
      cases hunit : hexUnit rest with
      | error f => exact Nat.zero_le _
      | ok found =>
        obtain ⟨high, tail⟩ := found
        have hle := length_hexUnit hunit
        have hpair := length_pairPiece high tail
        dsimp only
        split
        · simp only [List.length_cons]
          omega
        · split
          · simp only [List.length_cons]
            omega
          · simp only [List.length_cons]
            omega
    case h_10 => exact Nat.zero_le _
    all_goals
      simp only [List.length_cons]
      omega
  · split
    · exact Nat.zero_le _
    · simp

/-- What follows a text is shorter. -/
theorem length_scanFrom (fuel : Nat) (seen : Except Fault (List Char)) (cs : List Char) :
    (scanFrom fuel seen cs).rest.length ≤ cs.length := by
  induction fuel generalizing seen cs with
  | zero => exact Nat.zero_le _
  | succ fuel ih =>
    have hpiece := length_piece cs
    rw [scanFrom]
    cases h : piece cs with
    | mk p rest =>
      rw [h] at hpiece
      cases p with
      | fault f => exact Nat.zero_le _
      | char c => exact Nat.le_trans (ih _ rest) hpiece
      | half => exact Nat.le_trans (ih _ rest) hpiece
      | close => exact hpiece

/-- **A text with a closing quote is read alike** if more follows. -/
theorem scan_append {cs rest : List Char} {l : Literal} (h : scan cs = (l, rest))
    (hclosed : l.skipping = .ok ()) (more : List Char) : scan (cs ++ more) = (l, rest ++ more) := by
  rw [scan] at h
  obtain ⟨rfl, rfl⟩ := Prod.mk.inj h
  have hfuel : cs.length + 1 ≤ (cs ++ more).length + 1 := by
    rw [List.length_append]
    omega
  have hle := length_scanFrom (cs.length + 1) (.ok []) cs
  -- what was written is what was read, whatever is left behind it
  have hwritten (rest : List Char) (hrest : rest.length ≤ cs.length) :
      (cs ++ more).take ((cs ++ more).length - (rest ++ more).length) =
        cs.take (cs.length - rest.length) := by
    rw [List.length_append, List.length_append, List.take_append_of_le_length (by omega)]
    congr 1
    omega
  rw [scan, scanFrom_append hfuel hclosed more]
  simp only [hwritten _ hle]

end Postmortem.Json.Literal
