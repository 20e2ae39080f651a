import Postmortem.Proofs.Json.Literal
import Postmortem.Proofs.Json.Number
import Postmortem.Proofs.Json.Reader

/-!
# Layouts

All the ways in which a value may be written: between its parts may stand gaps of any length.
Reading gives the draft of the value, however it was written. The compact layout is the one without
gaps.

## Shape of the argument

`Written` relates a phrase, which is a value or what follows the opening bracket of one, to its
texts. By induction on it, reading a text of a phrase gives its drafts and stops right behind it;
the length of a text is fuel enough.
-/

namespace Postmortem.Json

open Postmortem.Number

/-! ## Gaps -/

/-- A text of characters that may stand between the parts of a value. -/
def Gap (cs : List Char) : Prop := ∀ c ∈ cs, isGap c = true

theorem gap_nil : Gap [] := by
  intro c hc
  cases hc

/-- Gaps are skipped up to the first character of another kind. -/
theorem skipGap_append_cons {g : List Char} (hg : Gap g) {c : Char} (hc : isGap c = false)
    (cs : List Char) : skipGap (g ++ c :: cs) = c :: cs := by
  rw [skipGap, List.dropWhile_append_of_pos hg, List.dropWhile_cons_of_neg (by simp [hc])]

/-- A gap does not continue a number, nor does what may follow it. -/
theorem numberEnd_append_cons {g : List Char} (hg : Gap g) {c : Char}
    (hc : isDigit c = false ∧ c ≠ '.' ∧ c ≠ 'e' ∧ c ≠ 'E') (cs : List Char) :
    NumberEnd (g ++ c :: cs) := by
  intro d hd
  cases g with
  | nil =>
    cases hd
    exact hc
  | cons e g =>
    cases hd
    have hgap := hg d List.mem_cons_self
    simp only [isGap, Bool.or_eq_true, beq_iff_eq] at hgap
    obtain ((rfl | rfl) | rfl) | rfl := hgap <;> decide

/-! ## The name of a member -/

/-- A gap before a text between quotes. -/
theorem skipGap_literal {g : List Char} (hg : Gap g) (k : String) (cs : List Char) :
    skipGap (g ++ (literal k ++ cs)) = '"' :: (literalTail k.toList ++ cs) :=
  skipGap_append_cons hg (by decide) _

/-- A name and its colon, with gaps before them. -/
theorem named_literal {g g' : List Char} (hg : Gap g) (hg' : Gap g') (k : String)
    (rest : List Char) :
    Named (g ++ (literal k ++ (g' ++ ':' :: rest))) (.ofString k) rest :=
  ⟨skipGap_literal hg k _, Literal.scan_literalTail k _, rfl,
    skipGap_append_cons hg' (by decide) rest⟩

/-! ## What is written -/

/-- A part of a text: a value, or the items of a list or the members of an object with their end. -/
inductive Phrase where
  | value (j : Json)
  | items (js : List Json)
  | members (ms : List (String × Json))

/-- The texts of phrases. -/
inductive Written : Phrase → List Char → Prop
  | null : Written (.value .null) "null".toList
  | flag (b : Bool) : Written (.value (.flag b)) (flagChars b)
  | number (n : Numeral) : Written (.value (.number n)) n.chars
  | text (s : String) : Written (.value (.text s)) (literal s)
  | list {js : List Json} {cs : List Char} (hitems : Written (.items js) cs) :
      Written (.value (.list js)) ('[' :: cs)
  | object {ms : List (String × Json)} {cs : List Char} (hmembers : Written (.members ms) cs) :
      Written (.value (.object ms)) ('\x7b' :: cs)
  /-- A gap before a value. -/
  | gap {j : Json} {c : Char} {cs : List Char} (hgap : isGap c = true)
      (hvalue : Written (.value j) cs) : Written (.value j) (c :: cs)
  | noItem {g : List Char} (hg : Gap g) : Written (.items []) (g ++ [']'])
  | lastItem {j : Json} {cs g : List Char} (hvalue : Written (.value j) cs) (hg : Gap g) :
      Written (.items [j]) (cs ++ (g ++ [']']))
  | item {j : Json} {js : List Json} {cs g cs' : List Char} (hvalue : Written (.value j) cs)
      (hg : Gap g) (hitems : Written (.items js) cs') (hne : js ≠ []) :
      Written (.items (j :: js)) (cs ++ (g ++ ',' :: cs'))
  | noMember {g : List Char} (hg : Gap g) : Written (.members []) (g ++ ['\x7d'])
  | lastMember {k : String} {j : Json} {g g' cs g'' : List Char} (hg : Gap g) (hg' : Gap g')
      (hvalue : Written (.value j) cs) (hg'' : Gap g'') :
      Written (.members [(k, j)]) (g ++ (literal k ++ (g' ++ ':' :: (cs ++ (g'' ++ ['\x7d'])))))
  | member {k : String} {j : Json} {ms : List (String × Json)} {g g' cs g'' cs' : List Char}
      (hg : Gap g) (hg' : Gap g') (hvalue : Written (.value j) cs) (hg'' : Gap g'')
      (hmembers : Written (.members ms) cs') (hne : ms ≠ []) :
      Written (.members ((k, j) :: ms))
        (g ++ (literal k ++ (g' ++ ':' :: (cs ++ (g'' ++ ',' :: cs')))))

/-- A number begins with a digit or a sign. -/
theorem head?_numeral (n : Numeral) :
    ∃ c cs, n.chars = c :: cs ∧ (isDigit c = true ∨ c = '-') := by
  rw [Numeral.chars_eq]
  cases n.negative with
  | true => exact ⟨'-', n.unsignedChars, rfl, .inr rfl⟩
  | false =>
    rw [if_neg (by decide), Numeral.unsignedChars]
    cases hds : digits n.whole with
    | nil => exact absurd hds (digits_ne_nil _)
    | cons d ds =>
      exact ⟨d, _, rfl, .inl (isDigit_of_mem_digits (hds ▸ List.mem_cons_self))⟩

/-- A value begins with a character that ends no list and no object. -/
theorem Written.skipGap_value {j : Json} {cs : List Char} (h : Written (.value j) cs)
    (rest : List Char) :
    ∃ c cs', skipGap (cs ++ rest) = c :: cs' ∧ c ≠ ']' ∧ c ≠ '\x7d' := by
  generalize hp : Phrase.value j = p at h
  induction h with
  | null => exact ⟨'n', _, rfl, by decide, by decide⟩
  | flag b => cases b <;> exact ⟨_, _, rfl, by decide, by decide⟩
  | number n =>
    obtain ⟨c, cs, hchars, hc⟩ := head?_numeral n
    have hfirst : isGap c = false ∧ c ≠ ']' ∧ c ≠ '\x7d' := by
      rcases hc with hc | rfl
      · obtain ⟨hgap, -, -, -, -, -, -, hlist, -, hobject⟩ := ne_of_isDigit hc
        exact ⟨hgap, hlist, hobject⟩
      · decide
    refine ⟨c, cs ++ rest, ?_, hfirst.2⟩
    rw [hchars]
    exact skipGap_append_cons gap_nil hfirst.1 _
  | text s => exact ⟨'"', _, rfl, by decide, by decide⟩
  | list => exact ⟨'[', _, rfl, by decide, by decide⟩
  | object => exact ⟨'\x7b', _, rfl, by decide, by decide⟩
  | @gap j' c cs hgap hvalue ih =>
    obtain ⟨d, cs', hskip, hd⟩ := ih hp
    refine ⟨d, cs', ?_, hd⟩
    rw [← hskip, List.cons_append, skipGap, List.dropWhile_cons_of_pos hgap, skipGap]
  | _ => cases hp

/-! ## Reading what was written -/

/-- A word is read up to its end. -/
theorem readWord_append (word : List Char) (d : Draft) (rest : List Char) :
    readWord word d (word ++ rest) = (d, some rest) := by
  induction word with
  | nil => rfl
  | cons c word ih =>
    rw [List.cons_append, readWord, if_pos (beq_self_eq_true c)]
    exact ih

/-- Reading a text of a phrase gives the drafts of the phrase and stops behind it. -/
def Phrase.IsReadFrom : Phrase → List Char → Prop
  | value j, cs => ∀ fuel rest, cs.length ≤ fuel → NumberEnd rest →
      readValue fuel (cs ++ rest) = (j.draft, some rest)
  | items js, cs => ∀ fuel rest, cs.length ≤ fuel → js ≠ [] →
      readItems fuel (cs ++ rest) = (draftItems js, .ok (), some rest)
  | members ms, cs => ∀ fuel rest, cs.length ≤ fuel → ms ≠ [] →
      readMembers fuel (cs ++ rest) = (draftMembers ms, .ok (), some rest)

/-- The word for nothing is read as a value. -/
private theorem readValue_null (fuel : Nat) (rest : List Char) :
    readValue (fuel + 1) ("null".toList ++ rest) = (null.draft, some rest) := by
  rw [readValue]
  exact readWord_append "ull".toList .null rest

/-- So is a truth value. -/
private theorem readValue_flag (b : Bool) (fuel : Nat) (rest : List Char) :
    readValue (fuel + 1) (flagChars b ++ rest) = ((flag b).draft, some rest) := by
  rw [flagChars.eq_def]
  cases b with
  | true =>
    rw [readValue]
    exact readWord_append "rue".toList (.flag true) rest
  | false =>
    rw [readValue]
    exact readWord_append "alse".toList (.flag false) rest

/-- So is a text. -/
private theorem readValue_literal (s : String) (fuel : Nat) (rest : List Char) :
    readValue (fuel + 1) (literal s ++ rest) = ((text s).draft, some rest) := by
  have hscan := Literal.scan_literalTail s rest
  rw [literal, List.cons_append, readValue_quote, hscan, draft]
  rfl

/-- A number is read as a value. -/
theorem readValue_numeral (n : Numeral) (fuel : Nat) {rest : List Char}
    (h : NumberEnd rest) :
    readValue (fuel + 1) (n.chars ++ rest) = ((number n).draft, some rest) := by
  have hread := readNumber_chars n h
  rw [Numeral.chars_eq]
  cases hsign : n.negative with
  | true =>
    rw [hsign] at hread
    rw [if_pos rfl, readValue]
    exact hread
  | false =>
    rw [hsign] at hread
    rw [if_neg (by decide)]
    obtain ⟨c, cs, hchars, hc⟩ : ∃ c cs, n.unsignedChars = c :: cs ∧ isDigit c = true := by
      rw [Numeral.unsignedChars]
      cases hds : digits n.whole with
      | nil => exact absurd hds (digits_ne_nil _)
      | cons d ds => exact ⟨d, _, rfl, isDigit_of_mem_digits (hds ▸ List.mem_cons_self)⟩
    rw [hchars] at hread ⊢
    exact (readValue_digit hc fuel (cs ++ rest)).trans hread

/-- A value behind a gap is read as without it. -/
private theorem readValue_gap {c : Char} (hc : isGap c = true) (fuel : Nat) (cs : List Char) :
    readValue (fuel + 1) (c :: cs) = readValue (fuel + 1) cs := by
  rw [readValue, readValue, skipGap, List.dropWhile_cons_of_pos hc, ← skipGap]

/-- Items begin with a character that does not close the list. -/
private theorem Written.skipGap_items {js : List Json} {cs : List Char}
    (h : Written (.items js) cs) (hne : js ≠ []) (rest : List Char) :
    ∃ c cs', skipGap (cs ++ rest) = c :: cs' ∧ c ≠ ']' := by
  cases h with
  | noItem => exact absurd rfl hne
  | @lastItem j cs g hvalue hg =>
    obtain ⟨c, cs', hskip, hc, -⟩ := hvalue.skipGap_value (g ++ [']'] ++ rest)
    refine ⟨c, cs', ?_, hc⟩
    rw [← hskip, List.append_assoc]
  | @item j js cs g cs' hvalue hg hitems =>
    obtain ⟨c, cs'', hskip, hc, -⟩ := hvalue.skipGap_value (g ++ ',' :: cs' ++ rest)
    refine ⟨c, cs'', ?_, hc⟩
    rw [← hskip, List.append_assoc]

/-- Members begin with a quote. -/
private theorem Written.skipGap_members {ms : List (String × Json)} {cs : List Char}
    (h : Written (.members ms) cs) (hne : ms ≠ []) (rest : List Char) :
    ∃ cs', skipGap (cs ++ rest) = '"' :: cs' := by
  cases h with
  | noMember => exact absurd rfl hne
  | lastMember hg =>
    rw [List.append_assoc]
    exact ⟨_, skipGap_append_cons hg (by decide) _⟩
  | member hg =>
    rw [List.append_assoc]
    exact ⟨_, skipGap_append_cons hg (by decide) _⟩

/-- A list is read if its items are. -/
private theorem Phrase.isReadFrom_list {js : List Json} {cs : List Char}
    (h : Written (.items js) cs) (ih : (items js).IsReadFrom cs) :
    (value (.list js)).IsReadFrom ('[' :: cs) := by
  intro fuel rest hfuel _
  rw [List.length_cons] at hfuel
  obtain ⟨fuel, rfl, hitems⟩ := exists_succ hfuel
  rw [List.cons_append, draft]
  by_cases hne : js = []
  · subst hne
    cases h with
    | noItem hg =>
      rw [List.append_assoc]
      exact readValue_closedList fuel (skipGap_append_cons hg (by decide) rest)
  · obtain ⟨c, cs', hskip, hc⟩ := h.skipGap_items hne rest
    rw [readValue_openList fuel hskip hc, ih fuel rest hitems hne]

/-- An object is read if its members are. -/
private theorem Phrase.isReadFrom_object {ms : List (String × Json)} {cs : List Char}
    (h : Written (.members ms) cs) (ih : (members ms).IsReadFrom cs) :
    (value (.object ms)).IsReadFrom ('\x7b' :: cs) := by
  intro fuel rest hfuel _
  rw [List.length_cons] at hfuel
  obtain ⟨fuel, rfl, hmembers⟩ := exists_succ hfuel
  rw [List.cons_append, draft]
  by_cases hne : ms = []
  · subst hne
    cases h with
    | noMember hg =>
      rw [List.append_assoc]
      exact readValue_closedObject fuel (skipGap_append_cons hg (by decide) rest)
  · obtain ⟨cs', hskip⟩ := h.skipGap_members hne rest
    rw [readValue_openObject fuel hskip (by decide), ih fuel rest hmembers hne]

/-- Every phrase takes up a character. -/
theorem Written.length_pos {p : Phrase} {cs : List Char} (h : Written p cs) : 1 ≤ cs.length := by
  cases h with
  | flag b => cases b <;> decide
  | number n =>
    obtain ⟨c, cs, hchars, -⟩ := head?_numeral n
    rw [hchars]
    exact Nat.le_add_left 1 _
  | null => decide
  | _ => simp only [List.length_append, List.length_cons, literal]; omega

/-- **Reading a written phrase gives its drafts**, and what follows is left. -/
theorem Written.isReadFrom {p : Phrase} {cs : List Char} (h : Written p cs) : p.IsReadFrom cs := by
  -- on how the phrase is written; fuel and what follows vary
  induction h with
  | null =>
    intro fuel rest hfuel _
    obtain ⟨fuel, rfl, -⟩ := exists_succ (Nat.le_trans Written.null.length_pos hfuel)
    exact readValue_null fuel rest
  | flag b =>
    intro fuel rest hfuel _
    obtain ⟨fuel, rfl, -⟩ := exists_succ (Nat.le_trans (Written.flag b).length_pos hfuel)
    exact readValue_flag b fuel rest
  | number n =>
    intro fuel rest hfuel hrest
    obtain ⟨fuel, rfl, -⟩ := exists_succ (Nat.le_trans (Written.number n).length_pos hfuel)
    exact readValue_numeral n fuel hrest
  | text s =>
    intro fuel rest hfuel _
    obtain ⟨fuel, rfl, -⟩ := exists_succ (Nat.le_trans (Written.text s).length_pos hfuel)
    exact readValue_literal s fuel rest
  | list hitems ih => exact Phrase.isReadFrom_list hitems ih
  | object hmembers ih => exact Phrase.isReadFrom_object hmembers ih
  | gap hgap hvalue ih =>
    intro fuel rest hfuel hrest
    rw [List.length_cons] at hfuel
    obtain ⟨fuel, rfl, hle⟩ := exists_succ hfuel
    rw [List.cons_append, readValue_gap hgap]
    exact ih (fuel + 1) rest (by omega) hrest
  | noItem => exact fun _ _ _ hne => absurd rfl hne
  | noMember => exact fun _ _ _ hne => absurd rfl hne
  | @lastItem j cs g hvalue hg ih =>
    intro fuel rest hfuel _
    rw [List.length_append, List.length_append, List.length_singleton, ← Nat.add_assoc] at hfuel
    obtain ⟨fuel, rfl, hle⟩ := exists_succ hfuel
    have hread := ih fuel (g ++ ']' :: rest) (by omega)
      (numberEnd_append_cons hg (by decide) rest)
    rw [List.append_assoc, List.append_assoc, List.singleton_append]
    exact readItems_last hread (skipGap_append_cons hg (by decide) rest)
  | @item j js cs g cs' hvalue hg hitems hne ihvalue ihitems =>
    intro fuel rest hfuel _
    simp only [List.length_append, List.length_cons] at hfuel
    obtain ⟨fuel, rfl, -⟩ := exists_succ (Nat.le_trans hvalue.length_pos (by omega : _ ≤ fuel))
    -- the comma is the character that leaves fuel for both
    have hread := ihvalue fuel (g ++ ',' :: (cs' ++ rest)) (by omega)
      (numberEnd_append_cons hg (by decide) (cs' ++ rest))
    rw [List.append_assoc, List.append_assoc, List.cons_append]
    exact readItems_more hread (skipGap_append_cons hg (by decide) (cs' ++ rest))
      (ihitems fuel rest (by omega) hne)
  | @lastMember k j g g' cs g'' hg hg' hvalue hg'' ih =>
    intro fuel rest hfuel _
    simp only [List.length_append, List.length_cons] at hfuel
    obtain ⟨fuel, rfl, -⟩ := exists_succ (Nat.le_trans hvalue.length_pos (by omega : _ ≤ fuel))
    have hread := ih fuel (g'' ++ '\x7d' :: rest) (by omega)
      (numberEnd_append_cons hg'' (by decide) rest)
    simp only [List.append_assoc, List.cons_append, List.nil_append]
    exact readMembers_last (named_literal hg hg' k _) hread
      (skipGap_append_cons hg'' (by decide) rest)
  | @member k j ms g g' cs g'' cs' hg hg' hvalue hg'' hmembers hne ihvalue ihmembers =>
    intro fuel rest hfuel _
    simp only [List.length_append, List.length_cons] at hfuel
    obtain ⟨fuel, rfl, -⟩ := exists_succ (Nat.le_trans hvalue.length_pos (by omega : _ ≤ fuel))
    have hread := ihvalue fuel (g'' ++ ',' :: (cs' ++ rest)) (by omega)
      (numberEnd_append_cons hg'' (by decide) (cs' ++ rest))
    simp only [List.append_assoc, List.cons_append]
    exact readMembers_more (named_literal hg hg' k _) hread
      (skipGap_append_cons hg'' (by decide) (cs' ++ rest)) (ihmembers fuel rest (by omega) hne)

/-- **Reading a written value gives its draft**, with nothing but a gap behind it. -/
theorem readDocument_written {j : Json} {cs g : List Char} (h : Written (.value j) cs)
    (hg : Gap g) : readDocument (cs ++ g) = ⟨j.draft, false⟩ := by
  have hend : NumberEnd g := by
    have hspace := numberEnd_append_cons hg (c := ' ') (by decide) []
    intro c hc
    apply hspace c
    rw [List.head?_append, hc]
    rfl
  have hread := h.isReadFrom ((cs ++ g).length + 1) g (by simp; omega) hend
  have hskip : skipGap g = [] := by
    rw [skipGap, ← List.append_nil g, List.dropWhile_append_of_pos hg, List.dropWhile_nil]
  rw [readDocument, hread]
  simp only [hskip]
  rfl

/-! ## The compact layout -/

mutual

/-- The compact layout is a layout. -/
theorem written_chars (j : Json) : Written (.value j) j.chars := by
  cases j with
  | null => exact .null
  | flag b => exact .flag b
  | number n => exact .number n
  | text s => exact .text s
  | list items =>
    rw [chars]
    exact .list (written_itemChars items)
  | object members =>
    rw [chars]
    exact .object (written_memberChars members)

/-- So is that of items. -/
theorem written_itemChars (js : List Json) : Written (.items js) (itemChars js) := by
  cases js with
  | nil => exact .noItem gap_nil
  | cons j js =>
    have hvalue := written_chars j
    cases js with
    | nil => exact .lastItem hvalue gap_nil
    | cons j' js =>
      exact .item hvalue gap_nil (written_itemChars (j' :: js)) (List.cons_ne_nil _ _)

/-- So is that of members. -/
theorem written_memberChars (ms : List (String × Json)) :
    Written (.members ms) (memberChars ms) := by
  cases ms with
  | nil => exact .noMember gap_nil
  | cons m ms =>
    obtain ⟨k, j⟩ := m
    have hvalue := written_chars j
    cases ms with
    | nil => exact .lastMember gap_nil gap_nil hvalue gap_nil
    | cons m' ms =>
      exact .member gap_nil gap_nil hvalue gap_nil (written_memberChars (m' :: ms))
        (List.cons_ne_nil _ _)

end

end Postmortem.Json
