import Postmortem.Text.Utf8

/-!
# Reading encoded texts

Reading the bytes of a text gives the text again. Bytes that were cut off before their end either
have a gap, because the cut is within a character, or are those of a shorter text.

## Shape of the argument

A character that begins where none is being read is read as a whole, which a case for each number
of bytes shows. That it cannot be read from fewer bytes needs no cases: every byte that leaves
nothing to come has added something to what was seen, and a whole character adds only one thing.
-/

namespace Postmortem.Text.Utf8

/-! ## One character -/

namespace State

/-- With nothing to come, a byte starts a character. -/
theorem next_of_needed_eq_zero {s : State} (h : s.needed = 0) (byte : UInt8) :
    s.next byte = s.start byte.toNat := by
  rw [next]
  simp [h]

/-- The first byte of two. -/
theorem start_two (seen : List (Option Char)) {b : Nat} (hlow : 0xc2 ≤ b) (hhigh : b ≤ 0xdf) :
    start { seen } b = { needed := 1, value := b - 0xc0, seen } := by
  rw [start, if_neg (by omega), if_pos (by simp [hlow, hhigh])]

/-- The first byte of three. -/
theorem start_three (seen : List (Option Char)) {b : Nat} (hlow : 0xe0 ≤ b) (hhigh : b ≤ 0xef) :
    start { seen } b =
      { needed := 2, value := b - 0xe0, seen
        low := if b = 0xe0 then 0xa0 else 0x80, high := if b = 0xed then 0x9f else 0xbf } := by
  rw [start, if_neg (by omega), if_neg (by simp; omega), if_pos (by simp [hlow, hhigh])]
  simp only [beq_iff_eq]

/-- The first byte of four. -/
theorem start_four (seen : List (Option Char)) {b : Nat} (hlow : 0xf0 ≤ b) (hhigh : b ≤ 0xf4) :
    start { seen } b =
      { needed := 3, value := b - 0xf0, seen
        low := if b = 0xf0 then 0x90 else 0x80, high := if b = 0xf4 then 0x8f else 0xbf } := by
  rw [start, if_neg (by omega), if_neg (by simp; omega), if_neg (by simp; omega),
    if_pos (by simp [hlow, hhigh])]
  simp only [beq_iff_eq]

/-- A byte that fits brings a character closer to its end. -/
theorem next_of_fits {s : State} {byte : UInt8} (hneeded : 1 < s.needed)
    (hlow : s.low ≤ byte.toNat) (hhigh : byte.toNat ≤ s.high) :
    s.next byte =
      { needed := s.needed - 1, value := s.value * 64 + (byte.toNat - 0x80), seen := s.seen } := by
  rw [next]
  have hzero : ¬ (s.needed == 0) = true := by simpa using by omega
  have hone : ¬ (s.needed == 1) = true := by simpa using by omega
  simp only [if_neg hzero, if_neg hone, hlow, hhigh, decide_true, Bool.and_self, if_true]

/-- The last byte that is needed completes a character. -/
theorem next_of_last {s : State} {byte : UInt8} (hneeded : s.needed = 1)
    (hlow : s.low ≤ byte.toNat) (hhigh : byte.toNat ≤ s.high) :
    s.next byte = { seen := some (.ofNat (s.value * 64 + (byte.toNat - 0x80))) :: s.seen } := by
  rw [next]
  simp [hneeded, hlow, hhigh]

/-- The start of a character sees at most one thing, and exactly one if nothing is to come. -/
theorem length_seen_start (s : State) (b : Nat) :
    s.seen.length ≤ (s.start b).seen.length ∧
      ((s.start b).needed = 0 → s.seen.length < (s.start b).seen.length) := by
  rw [start]
  repeat' split
  all_goals simp

/-- A byte does not take back what was seen, and adds to it if nothing is to come. -/
theorem length_seen_next (s : State) (byte : UInt8) :
    s.seen.length ≤ (s.next byte).seen.length ∧
      ((s.next byte).needed = 0 → s.seen.length < (s.next byte).seen.length) := by
  rw [next]
  split
  · exact length_seen_start s byte.toNat
  · split
    · split
      · simp
      · rename_i hone
        refine ⟨Nat.le_refl _, fun hzero => ?_⟩
        have hneeded : s.needed - 1 = 0 := hzero
        simp_all
        omega
    · obtain ⟨hle, hlt⟩ := length_seen_start { seen := none :: s.seen } byte.toNat
      simp only [List.length_cons] at hle hlt
      exact ⟨by omega, fun _ => by omega⟩

/-- Nor do bytes in a row. -/
theorem length_seen_foldl (s : State) (bytes : List UInt8) :
    s.seen.length ≤ (bytes.foldl next s).seen.length ∧
      (bytes ≠ [] → (bytes.foldl next s).needed = 0 →
        s.seen.length < (bytes.foldl next s).seen.length) := by
  induction bytes generalizing s with
  | nil => exact ⟨Nat.le_refl _, fun h => absurd rfl h⟩
  | cons byte bytes ih =>
    obtain ⟨hle, hlt⟩ := length_seen_next s byte
    obtain ⟨hle', hlt'⟩ := ih (s.next byte)
    rw [List.foldl_cons]
    refine ⟨Nat.le_trans hle hle', fun _ hzero => ?_⟩
    cases bytes with
    | nil => exact hlt hzero
    | cons b bs => exact Nat.lt_of_le_of_lt hle (hlt' (List.cons_ne_nil b bs) hzero)

end State

/-- The value of a byte that is one. -/
private theorem toNat_ofNat {n : Nat} (h : n < 256) : (UInt8.ofNat n).toNat = n := by
  rw [UInt8.toNat_ofNat', Nat.mod_eq_of_lt h]

/-- The code point of a character is not that of a surrogate. -/
private theorem toNat_valid (c : Char) :
    c.toNat < 0xd800 ∨ (0xdfff < c.toNat ∧ c.toNat < 0x110000) := c.valid

/-- **A character is read as a whole.** -/
theorem foldl_next_encodeChar (c : Char) (seen : List (Option Char)) :
    (String.utf8EncodeChar c).foldl State.next { seen } = { seen := some c :: seen } := by
  have hvalid := toNat_valid c
  have hval : c.val.toNat = c.toNat := rfl
  rw [String.utf8EncodeChar]
  simp only [hval]
  -- as many bytes as the code point needs
  by_cases h1 : c.toNat ≤ 0x7f
  · rw [if_pos h1, List.foldl_cons, List.foldl_nil, State.next_of_needed_eq_zero rfl,
      toNat_ofNat (by omega), State.start, if_pos (by omega), Char.ofNat_toNat]
  rw [if_neg h1]
  have hlast : (UInt8.ofNat (c.toNat % 0x40 + 0x80)).toNat = c.toNat % 0x40 + 0x80 :=
    toNat_ofNat (by omega)
  by_cases h2 : c.toNat ≤ 0x7ff
  · have hvalue : (c.toNat / 64 % 0x20 + 0xc0 - 0xc0) * 64 + (c.toNat % 0x40 + 0x80 - 0x80) =
        c.toNat := by omega
    rw [if_pos h2, List.foldl_cons, State.next_of_needed_eq_zero rfl, toNat_ofNat (by omega),
      State.start_two seen (by omega) (by omega), List.foldl_cons,
      State.next_of_last rfl (by rw [hlast]; simp) (by rw [hlast]; show _ ≤ 0xbf; omega),
      hlast, hvalue, Char.ofNat_toNat, List.foldl_nil]
  rw [if_neg h2]
  have hthird : (UInt8.ofNat (c.toNat / 64 % 0x40 + 0x80)).toNat = c.toNat / 64 % 0x40 + 0x80 :=
    toNat_ofNat (by omega)
  by_cases h3 : c.toNat ≤ 0xffff
  · have hvalue : ((c.toNat / 4096 % 0x10 + 0xe0 - 0xe0) * 64 +
        (c.toNat / 64 % 0x40 + 0x80 - 0x80)) * 64 + (c.toNat % 0x40 + 0x80 - 0x80) =
        c.toNat := by omega
    rw [if_pos h3, List.foldl_cons, State.next_of_needed_eq_zero rfl, toNat_ofNat (by omega),
      State.start_three seen (by omega) (by omega), List.foldl_cons,
      State.next_of_fits (Nat.lt_succ_self 1) (by rw [hthird]; dsimp only; split <;> omega)
        (by rw [hthird]; dsimp only; split <;> omega), List.foldl_cons,
      State.next_of_last rfl (by rw [hlast]; simp) (by rw [hlast]; show _ ≤ 0xbf; omega),
      hlast, hthird, hvalue, Char.ofNat_toNat, List.foldl_nil]
  rw [if_neg h3]
  have hsecond : (UInt8.ofNat (c.toNat / 4096 % 0x40 + 0x80)).toNat =
      c.toNat / 4096 % 0x40 + 0x80 := toNat_ofNat (by omega)
  have hvalue : (((c.toNat / 262144 % 0x08 + 0xf0 - 0xf0) * 64 +
      (c.toNat / 4096 % 0x40 + 0x80 - 0x80)) * 64 + (c.toNat / 64 % 0x40 + 0x80 - 0x80)) * 64 +
      (c.toNat % 0x40 + 0x80 - 0x80) = c.toNat := by omega
  rw [List.foldl_cons, State.next_of_needed_eq_zero rfl, toNat_ofNat (by omega),
    State.start_four seen (by omega) (by omega), List.foldl_cons,
    State.next_of_fits (by show 1 < 3; omega) (by rw [hsecond]; dsimp only; split <;> omega)
      (by rw [hsecond]; dsimp only; split <;> omega), List.foldl_cons,
    State.next_of_fits (Nat.lt_succ_self 1) (by rw [hthird]; show 0x80 ≤ _; omega)
      (by rw [hthird]; show _ ≤ 0xbf; omega), List.foldl_cons,
    State.next_of_last rfl (by rw [hlast]; simp) (by rw [hlast]; show _ ≤ 0xbf; omega),
    hlast, hthird, hsecond, hvalue, Char.ofNat_toNat, List.foldl_nil]

/-- Fewer bytes, if there are any, leave bytes to come. -/
theorem needed_of_prefix {c : Char} {bytes rest : List UInt8} (seen : List (Option Char))
    (hsplit : bytes ++ rest = String.utf8EncodeChar c) (hbytes : bytes ≠ []) (hrest : rest ≠ []) :
    (bytes.foldl State.next { seen }).needed ≠ 0 := by
  intro hzero
  have hwhole := foldl_next_encodeChar c seen
  rw [← hsplit, List.foldl_append] at hwhole
  have hfirst := (State.length_seen_foldl { seen } bytes).2 hbytes hzero
  have hsecond := (State.length_seen_foldl (bytes.foldl State.next { seen }) rest).2 hrest
    (by rw [hwhole])
  rw [hwhole] at hsecond
  simp only [List.length_cons] at hfirst hsecond
  omega

/-- A byte below 0x80 stands for a character of its own. -/
theorem toNat_of_mem_encodeChar {c : Char} {byte : UInt8} (hmem : byte ∈ String.utf8EncodeChar c)
    (hbyte : byte.toNat < 0x80) : c.toNat = byte.toNat := by
  have hval : c.val.toNat = c.toNat := rfl
  have hhigh {n : Nat} (hlow : 0x80 ≤ n) (hlt : n < 256) : byte ≠ .ofNat n := by
    rintro rfl
    rw [toNat_ofNat hlt] at hbyte
    omega
  rw [String.utf8EncodeChar] at hmem
  simp only [hval] at hmem
  split at hmem
  · rw [List.mem_singleton] at hmem
    rw [hmem, toNat_ofNat (by omega)]
  · exfalso
    split at hmem
    · simp only [List.mem_cons, List.not_mem_nil, or_false] at hmem
      rcases hmem with h | h <;> exact hhigh (by omega) (by omega) h
    · split at hmem
      · simp only [List.mem_cons, List.not_mem_nil, or_false] at hmem
        rcases hmem with h | h | h <;> exact hhigh (by omega) (by omega) h
      · simp only [List.mem_cons, List.not_mem_nil, or_false] at hmem
        rcases hmem with h | h | h | h <;> exact hhigh (by omega) (by omega) h

/-! ## Texts -/

@[simp]
theorem encode_nil : encode [] = [] := rfl

@[simp]
theorem encode_cons (c : Char) (cs : List Char) :
    encode (c :: cs) = String.utf8EncodeChar c ++ encode cs := rfl

theorem encode_append (cs ds : List Char) : encode (cs ++ ds) = encode cs ++ encode ds :=
  List.flatMap_append

/-- A text is read character by character. -/
theorem foldl_next_encode (cs : List Char) (seen : List (Option Char)) :
    (encode cs).foldl State.next { seen } = { seen := (cs.map some).reverse ++ seen } := by
  induction cs generalizing seen with
  | nil => rfl
  | cons c cs ih =>
    rw [encode_cons, List.foldl_append, foldl_next_encodeChar, ih, List.map_cons,
      List.reverse_cons, List.append_assoc]
    rfl

/-- An encoded text has no gaps. -/
theorem pieces_encode (cs : List Char) : pieces (encode cs) = cs.map some := by
  rw [pieces, foldl_next_encode cs []]
  simp

/-- **Reading an encoded text gives it again.** -/
theorem chars?_encode (cs : List Char) : chars? (encode cs) = some cs := by
  rw [chars?, pieces_encode, List.mapM_map]
  exact List.mapM_pure.trans (congrArg some (List.map_id cs))

/-- Bytes that leave bytes to come are no text. -/
theorem chars?_of_needed {bytes : List UInt8} (h : (bytes.foldl State.next {}).needed ≠ 0) :
    chars? bytes = none := by
  rw [chars?, pieces]
  rw [if_neg (by simpa using h), List.reverse_cons, List.mapM_append]
  cases (bytes.foldl State.next {}).seen.reverse.mapM id <;> rfl

/-- **What is left of a cut text** is no text, or the beginning of that text. -/
theorem chars?_of_prefix {cs : List Char} {bytes : List UInt8} (h : bytes <+: encode cs) :
    chars? bytes = none ∨ ∃ ds, ds <+: cs ∧ bytes = encode ds := by
  obtain hneeded | hds : (∀ seen, (bytes.foldl State.next { seen }).needed ≠ 0) ∨
      ∃ ds, ds <+: cs ∧ bytes = encode ds := by
    induction cs generalizing bytes with
    | nil => exact .inr ⟨[], List.nil_prefix, List.prefix_nil.mp h⟩
    | cons c cs ih =>
      obtain ⟨rest, hrest⟩ := h
      rw [encode_cons, List.append_eq_append_iff] at hrest
      obtain ⟨inside, hchar, -⟩ | ⟨more, hbytes, hmore⟩ := hrest
      · -- the cut is before the end of the character
        by_cases hnone : bytes = []
        · exact .inr ⟨[], List.nil_prefix, hnone⟩
        · by_cases hall : inside = []
          · refine .inr ⟨[c], ⟨cs, rfl⟩, ?_⟩
            rw [hall, List.append_nil] at hchar
            rw [encode_cons, encode_nil, List.append_nil, hchar]
          · exact .inl fun seen => needed_of_prefix seen hchar.symm hnone hall
      · -- the cut is in the characters after it
        obtain hneeded | ⟨ds, hds, hencode⟩ := ih ⟨rest, hmore.symm⟩
        · left
          intro seen
          rw [hbytes, List.foldl_append, foldl_next_encodeChar]
          exact hneeded (some c :: seen)
        · refine .inr ⟨c :: ds, (List.prefix_cons_inj c).mpr hds, ?_⟩
          rw [hbytes, encode_cons, hencode]
  · exact .inl (chars?_of_needed (hneeded []))
  · exact .inr hds

/-- The encoding of a text has no line feeds but its own. -/
theorem feed_not_mem_encode {cs : List Char} (h : '\n' ∉ cs) : 10 ∉ encode cs := by
  intro hmem
  rw [encode, List.mem_flatMap] at hmem
  obtain ⟨c, hc, hbyte⟩ := hmem
  have hcode : c.toNat = 10 := toNat_of_mem_encodeChar hbyte (by decide)
  have hfeed : c = '\n' := by
    rw [← Char.ofNat_toNat c, hcode]
  exact h (hfeed ▸ hc)

end Postmortem.Text.Utf8
