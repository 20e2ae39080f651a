import Mathlib.Data.List.Basic
import Postmortem.Proofs.Text.Utf8

/-!
# Texts made of any bytes

All bytes have a text if U+FFFD stands in place of what cannot be read. The text of an encoded text
is that text again, and a text without U+FFFD was made of nothing but its own encoding. So bytes
that are no text cannot be taken for one, unless it has that character itself.

## Shape of the argument

Bytes without gaps are read character by character, which is followed from the first byte on. A
character that has begun is told by its future (`State.Begun`): whatever bytes bring it to its end,
those read so far and these encode a character, and its value is what the reader will come to. Then
a byte more is a step into that future, and only the first byte of a character takes cases.
-/

namespace Postmortem.Text.Utf8

/-- The value of a character after some more of its bytes. -/
def valueAfter (value : Nat) (bytes : List UInt8) : Nat :=
  bytes.foldl (fun v b => v * 64 + (b.toNat - 0x80)) value

namespace State

/-- With the bytes `begun` read for it, a character lacks nothing but bytes that fit: together they
encode one, and it is the one whose value the reader comes to. -/
def Begun (s : State) (begun : List UInt8) : Prop :=
  ∀ bytes : List UInt8, bytes.length = s.needed →
    (∀ b ∈ bytes.head?, s.low ≤ b.toNat ∧ b.toNat ≤ s.high) →
    (∀ b ∈ bytes.tail, 0x80 ≤ b.toNat ∧ b.toNat ≤ 0xbf) →
    ∃ c : Char, String.utf8EncodeChar c = begun ++ bytes ∧ c.toNat = valueAfter s.value bytes

/-- A code point that is not one of a surrogate is that of a character. -/
private theorem exists_toNat_eq {n : Nat} (h : n < 0xd800 ∨ (0xdfff < n ∧ n < 0x110000)) :
    ∃ c : Char, c.toNat = n :=
  ⟨Char.ofNat n, by
    have hvalid : n.isValidChar := h
    rw [Char.ofNat, dif_pos hvalid]
    rfl⟩

/-- A byte is told by its value. -/
private theorem ofNat_eq {n : Nat} {b : UInt8} (h : n = b.toNat) : UInt8.ofNat n = b := by
  rw [h, UInt8.ofNat_toNat]

/-- The first byte of two begins a character. -/
theorem begun_two (seen : List (Option Char)) {b : UInt8} (hlow : 0xc2 ≤ b.toNat)
    (hhigh : b.toNat ≤ 0xdf) : (start { seen } b.toNat).Begun [b] := by
  rw [start_two seen hlow hhigh]
  intro bytes hlength hhead _
  obtain ⟨b₁, rfl⟩ := List.length_eq_one_iff.mp hlength
  obtain ⟨hlow₁, hhigh₁⟩ := hhead b₁ rfl
  dsimp only at hlow₁ hhigh₁
  obtain ⟨c, hc⟩ := exists_toNat_eq (n := valueAfter (b.toNat - 0xc0) [b₁])
    (by simp only [valueAfter, List.foldl_cons, List.foldl_nil]; omega)
  refine ⟨c, ?_, hc⟩
  have hval : c.val.toNat = (b.toNat - 0xc0) * 64 + (b₁.toNat - 0x80) := hc
  rw [String.utf8EncodeChar]
  simp only [hval]
  rw [if_neg (by omega), if_pos (by omega), ofNat_eq (b := b) (by omega),
    ofNat_eq (b := b₁) (by omega)]
  rfl

/-- So does the first byte of three. -/
theorem begun_three (seen : List (Option Char)) {b : UInt8} (hlow : 0xe0 ≤ b.toNat)
    (hhigh : b.toNat ≤ 0xef) : (start { seen } b.toNat).Begun [b] := by
  rw [start_three seen hlow hhigh]
  intro bytes hlength hhead htail
  obtain ⟨b₁, b₂, rfl⟩ := List.length_eq_two.mp hlength
  have hfirst := hhead b₁ rfl
  obtain ⟨hlow₂, hhigh₂⟩ := htail b₂ List.mem_cons_self
  -- shorter forms and surrogates are left out by the bounds on the second byte
  have hbounds : 0x80 ≤ b₁.toNat ∧ b₁.toNat ≤ 0xbf ∧ (b.toNat = 0xe0 → 0xa0 ≤ b₁.toNat) ∧
      (b.toNat = 0xed → b₁.toNat ≤ 0x9f) := by
    dsimp only at hfirst
    split at hfirst <;> split at hfirst <;> omega
  obtain ⟨c, hc⟩ := exists_toNat_eq (n := valueAfter (b.toNat - 0xe0) [b₁, b₂])
    (by simp only [valueAfter, List.foldl_cons, List.foldl_nil]; omega)
  refine ⟨c, ?_, hc⟩
  have hval : c.val.toNat = ((b.toNat - 0xe0) * 64 + (b₁.toNat - 0x80)) * 64 +
    (b₂.toNat - 0x80) := hc
  rw [String.utf8EncodeChar]
  simp only [hval]
  rw [if_neg (by omega), if_neg (by omega), if_pos (by omega), ofNat_eq (b := b) (by omega),
    ofNat_eq (b := b₁) (by omega), ofNat_eq (b := b₂) (by omega)]
  rfl

/-- And so does the first byte of four. -/
theorem begun_four (seen : List (Option Char)) {b : UInt8} (hlow : 0xf0 ≤ b.toNat)
    (hhigh : b.toNat ≤ 0xf4) : (start { seen } b.toNat).Begun [b] := by
  rw [start_four seen hlow hhigh]
  intro bytes hlength hhead htail
  obtain ⟨b₁, b₂, b₃, rfl⟩ := List.length_eq_three.mp hlength
  have hfirst := hhead b₁ rfl
  obtain ⟨hlow₂, hhigh₂⟩ := htail b₂ List.mem_cons_self
  obtain ⟨hlow₃, hhigh₃⟩ := htail b₃ (List.mem_cons_of_mem _ List.mem_cons_self)
  -- so are shorter forms and what lies above the last plane
  have hbounds : 0x80 ≤ b₁.toNat ∧ b₁.toNat ≤ 0xbf ∧ (b.toNat = 0xf0 → 0x90 ≤ b₁.toNat) ∧
      (b.toNat = 0xf4 → b₁.toNat ≤ 0x8f) := by
    dsimp only at hfirst
    split at hfirst <;> split at hfirst <;> omega
  obtain ⟨c, hc⟩ := exists_toNat_eq (n := valueAfter (b.toNat - 0xf0) [b₁, b₂, b₃])
    (by simp only [valueAfter, List.foldl_cons, List.foldl_nil]; omega)
  refine ⟨c, ?_, hc⟩
  have hval : c.val.toNat = (((b.toNat - 0xf0) * 64 + (b₁.toNat - 0x80)) * 64 +
    (b₂.toNat - 0x80)) * 64 + (b₃.toNat - 0x80) := hc
  rw [String.utf8EncodeChar]
  simp only [hval]
  rw [if_neg (by omega), if_neg (by omega), if_neg (by omega), ofNat_eq (b := b) (by omega),
    ofNat_eq (b := b₁) (by omega), ofNat_eq (b := b₂) (by omega), ofNat_eq (b := b₃) (by omega)]
  rfl

/-- A byte that fits is a step into the future of a character. -/
theorem Begun.next {s : State} {begun : List UInt8} (h : s.Begun begun) (hneeded : 1 < s.needed)
    {b : UInt8} (hlow : s.low ≤ b.toNat) (hhigh : b.toNat ≤ s.high) :
    (s.next b).Begun (begun ++ [b]) := by
  rw [next_of_fits hneeded hlow hhigh]
  intro bytes hlength hhead htail
  have hlength' : (b :: bytes).length = s.needed := by
    dsimp only at hlength
    rw [List.length_cons, hlength]
    omega
  have hhead' : ∀ b' ∈ (b :: bytes).head?, s.low ≤ b'.toNat ∧ b'.toNat ≤ s.high := by
    intro b' hb'
    obtain rfl : b = b' := Option.some.inj hb'
    exact ⟨hlow, hhigh⟩
  have htail' : ∀ b' ∈ bytes, 0x80 ≤ b'.toNat ∧ b'.toNat ≤ 0xbf := by
    cases bytes with
    | nil => exact fun b' hb' => absurd hb' List.not_mem_nil
    | cons first rest =>
      intro b' hb'
      rcases List.mem_cons.mp hb' with rfl | hb'
      · exact hhead b' rfl
      · exact htail b' hb'
  obtain ⟨c, hencode, hvalue⟩ := h (b :: bytes) hlength' hhead' htail'
  refine ⟨c, ?_, ?_⟩
  · rw [hencode, List.append_assoc, List.singleton_append]
  · rw [hvalue, valueAfter, List.foldl_cons, ← valueAfter]

/-- The last one is the end of it. -/
theorem Begun.last {s : State} {begun : List UInt8} (h : s.Begun begun) (hneeded : s.needed = 1)
    {b : UInt8} (hlow : s.low ≤ b.toNat) (hhigh : b.toNat ≤ s.high) :
    ∃ c : Char, String.utf8EncodeChar c = begun ++ [b] ∧
      s.next b = { seen := some c :: s.seen } := by
  have hhead : ∀ b' ∈ [b].head?, s.low ≤ b'.toNat ∧ b'.toNat ≤ s.high := by
    intro b' hb'
    obtain rfl : b = b' := Option.some.inj hb'
    exact ⟨hlow, hhigh⟩
  obtain ⟨c, hencode, hvalue⟩ := h [b] hneeded.symm hhead fun b' hb' => absurd hb' List.not_mem_nil
  have hchar : Char.ofNat (s.value * 64 + (b.toNat - 0x80)) = c := by
    have hvalue' : c.toNat = s.value * 64 + (b.toNat - 0x80) := hvalue
    rw [← hvalue', Char.ofNat_toNat]
  exact ⟨c, hencode, by rw [next_of_last hneeded hlow hhigh, hchar]⟩

/-- A byte that does not fit leaves a gap and starts afresh. -/
theorem next_of_misfit {s : State} {b : UInt8} (hneeded : s.needed ≠ 0)
    (hmisfit : ¬ (s.low ≤ b.toNat ∧ b.toNat ≤ s.high)) :
    s.next b = start { seen := none :: s.seen } b.toNat := by
  rw [next]
  rw [if_neg (by simpa using hneeded), if_neg (by simpa using hmisfit)]

/-- Starting a character takes back nothing that was seen. -/
theorem seen_subset_start (s : State) (b : Nat) : s.seen ⊆ (s.start b).seen := by
  rw [start]
  repeat' split
  all_goals simp

/-- Nor does a byte. -/
theorem seen_subset_next (s : State) (b : UInt8) : s.seen ⊆ (s.next b).seen := by
  by_cases hneeded : s.needed = 0
  · rw [next_of_needed_eq_zero hneeded]
    exact seen_subset_start s b.toNat
  · by_cases hfits : s.low ≤ b.toNat ∧ b.toNat ≤ s.high
    · by_cases hone : s.needed = 1
      · rw [next_of_last hone hfits.1 hfits.2]
        exact List.subset_cons_self _ _
      · rw [next_of_fits (by omega) hfits.1 hfits.2]
        exact List.Subset.refl _
    · rw [next_of_misfit hneeded hfits]
      exact List.subset_of_cons_subset (seen_subset_start { seen := none :: s.seen } b.toNat)

/-- Nor do bytes in a row. -/
theorem seen_subset_foldl (s : State) (bytes : List UInt8) :
    s.seen ⊆ (bytes.foldl next s).seen := by
  induction bytes generalizing s with
  | nil => exact List.Subset.refl _
  | cons b bytes ih => exact List.Subset.trans (seen_subset_next s b) (ih (s.next b))

/-- What a reader without gaps has come to: whole characters, and perhaps one that has begun. -/
def HasRead (s : State) (bytes : List UInt8) : Prop :=
  ∃ cs begun, s.seen = (cs.map some).reverse ∧ bytes = encode cs ++ begun ∧
    (s.needed = 0 → begun = []) ∧ (s.needed ≠ 0 → s.Begun begun)

/-- Between characters, a byte is one or begins one, unless it leaves a gap. -/
theorem HasRead.start {s : State} {cs : List Char} (hseen : s.seen = (cs.map some).reverse)
    {b : UInt8} (hgap : none ∉ (s.start b.toNat).seen) :
    (s.start b.toNat).HasRead (encode cs ++ [b]) := by
  have hstart : s.start b.toNat = State.start { seen := s.seen } b.toNat := rfl
  rw [hstart] at hgap ⊢
  by_cases hone : b.toNat < 0x80
  · have hvalue : (Char.ofNat b.toNat).val.toNat = b.toNat := by
      obtain ⟨c, hc⟩ := exists_toNat_eq (n := b.toNat) (.inl (by omega))
      rw [← hc, Char.ofNat_toNat]
      rfl
    refine ⟨cs ++ [Char.ofNat b.toNat], [], ?_, ?_, fun _ => rfl, fun h => ?_⟩
    · rw [State.start, if_pos hone, hseen]
      simp
    · rw [encode_append, encode_cons, encode_nil, List.append_nil, List.append_nil,
        String.utf8EncodeChar]
      simp only [hvalue]
      rw [if_pos (by omega), UInt8.ofNat_toNat]
    · rw [State.start, if_pos hone] at h
      exact absurd rfl h
  by_cases htwo : 0xc2 ≤ b.toNat ∧ b.toNat ≤ 0xdf
  · have hbegun := begun_two s.seen htwo.1 htwo.2
    rw [start_two s.seen htwo.1 htwo.2] at hbegun ⊢
    exact ⟨cs, [b], hseen, rfl, fun h => absurd h (by simp), fun _ => hbegun⟩
  by_cases hthree : 0xe0 ≤ b.toNat ∧ b.toNat ≤ 0xef
  · have hbegun := begun_three s.seen hthree.1 hthree.2
    rw [start_three s.seen hthree.1 hthree.2] at hbegun ⊢
    exact ⟨cs, [b], hseen, rfl, fun h => absurd h (by simp), fun _ => hbegun⟩
  by_cases hfour : 0xf0 ≤ b.toNat ∧ b.toNat ≤ 0xf4
  · have hbegun := begun_four s.seen hfour.1 hfour.2
    rw [start_four s.seen hfour.1 hfour.2] at hbegun ⊢
    exact ⟨cs, [b], hseen, rfl, fun h => absurd h (by simp), fun _ => hbegun⟩
  -- no character begins with any other byte
  exfalso
  rw [State.start, if_neg hone, if_neg (by simpa using htwo), if_neg (by simpa using hthree),
    if_neg (by simpa using hfour)] at hgap
  exact hgap List.mem_cons_self

/-- A byte that leaves no gap is read on. -/
theorem HasRead.next {s : State} {bytes : List UInt8} (h : s.HasRead bytes) {b : UInt8}
    (hgap : none ∉ (s.next b).seen) : (s.next b).HasRead (bytes ++ [b]) := by
  obtain ⟨cs, begun, hseen, rfl, hzero, hbegun⟩ := h
  by_cases hneeded : s.needed = 0
  · rw [next_of_needed_eq_zero hneeded] at hgap ⊢
    rw [hzero hneeded, List.append_nil]
    exact .start hseen hgap
  have hbegun := hbegun hneeded
  by_cases hfits : s.low ≤ b.toNat ∧ b.toNat ≤ s.high
  · by_cases hone : s.needed = 1
    · obtain ⟨c, hencode, hnext⟩ := hbegun.last hone hfits.1 hfits.2
      rw [hnext]
      refine ⟨cs ++ [c], [], ?_, ?_, fun _ => rfl, fun h => absurd rfl h⟩
      · rw [hseen]
        simp
      · rw [encode_append, encode_cons, encode_nil, hencode, List.append_nil, List.append_nil,
          List.append_assoc]
    · have hmore : 1 < s.needed := by omega
      have hnext := hbegun.next hmore hfits.1 hfits.2
      rw [next_of_fits hmore hfits.1 hfits.2] at hnext ⊢
      refine ⟨cs, begun ++ [b], hseen, List.append_assoc .., fun h => ?_, fun _ => hnext⟩
      dsimp only at h
      omega
  · exfalso
    rw [next_of_misfit hneeded hfits] at hgap
    exact hgap (seen_subset_start { seen := none :: s.seen } b.toNat List.mem_cons_self)

/-- And so are bytes in a row. -/
theorem HasRead.foldl {s : State} {before : List UInt8} (h : s.HasRead before)
    {bytes : List UInt8} (hgap : none ∉ (bytes.foldl State.next s).seen) :
    (bytes.foldl State.next s).HasRead (before ++ bytes) := by
  induction bytes generalizing s before with
  | nil =>
    rw [List.append_nil]
    exact h
  | cons b bytes ih =>
    rw [List.foldl_cons] at hgap ⊢
    have hfirst := h.next fun hnone => hgap (seen_subset_foldl (s.next b) bytes hnone)
    have hall := ih hfirst hgap
    rwa [List.append_assoc, List.singleton_append] at hall

end State

/-- **Bytes without gaps are an encoded text.** -/
theorem exists_encode_of_pieces {bytes : List UInt8} (hgap : none ∉ pieces bytes) :
    ∃ cs, bytes = encode cs := by
  have hstart : State.HasRead {} [] :=
    ⟨[], [], rfl, rfl, fun _ => rfl, fun h => absurd rfl h⟩
  rw [pieces, List.mem_reverse] at hgap
  by_cases hneeded : (bytes.foldl State.next {}).needed = 0
  · rw [if_pos (by simpa using hneeded)] at hgap
    obtain ⟨cs, begun, -, hbytes, hzero, -⟩ := hstart.foldl hgap
    rw [hzero hneeded, List.append_nil, List.nil_append] at hbytes
    exact ⟨cs, hbytes⟩
  · -- a character that is not brought to its end is a gap
    rw [if_neg (by simpa using hneeded)] at hgap
    exact absurd List.mem_cons_self hgap

/-- The text of an encoded text is that text. -/
theorem lossyString_ofString (s : String) : lossyString (ofString s) = s := by
  have hchars : lossyChars (encode s.toList) = s.toList := by
    rw [lossyChars, pieces_encode, List.map_map]
    exact List.map_id s.toList
  rw [lossyString, ofString, hchars, String.ofList_toList]

/-- **A text without U+FFFD was made of its own encoding.** -/
theorem ofString_lossyString {bytes : List UInt8}
    (h : '\ufffd' ∉ (lossyString bytes).toList) : ofString (lossyString bytes) = bytes := by
  rw [lossyString, String.toList_ofList, lossyChars] at h
  have hgap : none ∉ pieces bytes := fun hnone => h (List.mem_map.mpr ⟨none, hnone, rfl⟩)
  obtain ⟨cs, rfl⟩ := exists_encode_of_pieces hgap
  have htext : encode cs = ofString (.ofList cs) := by rw [ofString, String.toList_ofList]
  rw [htext, lossyString_ofString]

end Postmortem.Text.Utf8
