import Postmortem.Text.Blank

/-!
# Texts without blanks at their ends

Trimming gives a text that neither begins nor ends with a blank, and leaves such a text as it is.
Blanks behind a text make no difference to it.
-/

namespace Postmortem.Text

/-- A text that neither begins nor ends with a blank. -/
structure NoBlankEnds (cs : List Char) : Prop where
  head : ∀ c ∈ cs.head?, isBlank c = false
  last : ∀ c ∈ cs.getLast?, isBlank c = false

/-- What is left after blanks are dropped does not begin with one. -/
theorem head?_trimStart (cs : List Char) : ∀ c ∈ (trimStart cs).head?, isBlank c = false := by
  intro c hc
  cases h : trimStart cs with
  | nil => rw [h] at hc; exact absurd hc (by simp)
  | cons d ds =>
    rw [h, List.head?_cons, Option.mem_some_iff] at hc
    have hd := List.head?_dropWhile_not isBlank cs
    rw [← trimStart, h] at hd
    rw [← hc]
    simpa using hd

/-- A text that does not begin with a blank keeps its beginning. -/
theorem trimStart_eq_self {cs : List Char} (h : ∀ c ∈ cs.head?, isBlank c = false) :
    trimStart cs = cs := by
  cases cs with
  | nil => rfl
  | cons c cs =>
    rw [trimStart, List.dropWhile_cons_of_neg]
    rw [h c rfl]
    simp

/-- A text that does not end with a blank keeps its end. -/
theorem trimEnd_eq_self {cs : List Char} (h : ∀ c ∈ cs.getLast?, isBlank c = false) :
    trimEnd cs = cs := by
  have hstart : trimStart cs.reverse = cs.reverse :=
    trimStart_eq_self (by rw [List.head?_reverse]; exact h)
  rw [trimEnd, ← trimStart, hstart, List.reverse_reverse]

/-- Dropping blanks from the end does not change the beginning of what is left. -/
theorem isPrefix_trimEnd (cs : List Char) : trimEnd cs <+: cs := by
  rw [trimEnd, ← List.reverse_suffix, List.reverse_reverse]
  exact List.dropWhile_suffix isBlank

/-- A trimmed text is part of the text. -/
theorem isInfix_trim (cs : List Char) : trim cs <:+: cs :=
  (isPrefix_trimEnd (trimStart cs)).isInfix.trans (List.dropWhile_suffix isBlank).isInfix

/-- A trimmed text has no blanks at its ends. -/
theorem noBlankEnds_trim (cs : List Char) : NoBlankEnds (trim cs) := by
  constructor
  · intro c hc
    obtain ⟨more, hmore⟩ := isPrefix_trimEnd (trimStart cs)
    apply head?_trimStart cs c
    rw [← hmore, List.head?_append]
    rw [trim] at hc
    rw [hc]
    rfl
  · intro c hc
    rw [trim, trimEnd, List.getLast?_reverse] at hc
    exact head?_trimStart (trimStart cs).reverse c hc

/-- A text without blanks at its ends has nothing to trim. -/
theorem trim_eq_self {cs : List Char} (h : NoBlankEnds cs) : trim cs = cs := by
  rw [trim, trimStart_eq_self h.head, trimEnd_eq_self h.last]

/-- Nothing but blanks is trimmed. -/
theorem mem_trim {c : Char} {cs : List Char} (hmem : c ∈ cs) (hc : isBlank c = false) :
    c ∈ trim cs := by
  have hdrop {ds : List Char} (hds : c ∈ ds) : c ∈ ds.dropWhile isBlank := by
    rw [← List.takeWhile_append_dropWhile (p := isBlank) (l := ds), List.mem_append] at hds
    rcases hds with hblank | hrest
    · have hall := List.all_eq_true.mp (List.all_takeWhile (p := isBlank) (l := ds)) c hblank
      rw [hc] at hall
      exact absurd hall (by decide)
    · exact hrest
  rw [trim, trimEnd, List.mem_reverse]
  exact hdrop (List.mem_reverse.mpr (hdrop hmem))

/-- Of blanks alone, nothing is left. -/
theorem trim_eq_nil_iff {cs : List Char} : trim cs = [] ↔ ∀ c ∈ cs, isBlank c = true := by
  constructor
  · intro hnone c hc
    cases hblank : isBlank c with
    | true => rfl
    | false =>
      have hmem := mem_trim hc hblank
      rw [hnone] at hmem
      cases hmem
  · intro hall
    have hstart : trimStart (cs ++ []) = [] := List.dropWhile_append_of_pos hall
    rw [trim, ← List.append_nil cs, hstart]
    rfl

/-- A blank behind a text is trimmed. -/
theorem trim_concat_of_isBlank {c : Char} (hc : isBlank c = true) (cs : List Char) :
    trim (cs ++ [c]) = trim cs := by
  have hend (ds : List Char) : trimEnd (ds ++ [c]) = trimEnd ds := by
    rw [trimEnd, List.reverse_append, List.reverse_singleton, List.singleton_append,
      List.dropWhile_cons_of_pos hc, ← trimEnd]
  rw [trim, trim, trimStart, List.dropWhile_append, ← trimStart]
  by_cases hnone : (trimStart cs).isEmpty = true
  · -- a text of blanks alone
    rw [if_pos hnone, List.dropWhile_cons_of_pos hc, List.isEmpty_iff.mp hnone]
    rfl
  · rw [if_neg hnone, hend]

end Postmortem.Text
